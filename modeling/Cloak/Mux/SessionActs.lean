import Cloak.Mux.SessionMoves

set_option autoImplicit false

/-! # What a session asks of the reactor and the allocator

A session adds and cancels timers and frees stream objects. `callEffects` lists what one event asks,
in the order of the source, and `call_acts` splits the event into acts, each with its own share of
that list. An act is as small as the books allow: what must change together for the counter, the
table, the flags and the calls in progress to agree changes in one act. -/

namespace Cloak

open Lib

/-- A request of a session to the reactor or the allocator. -/
inductive SessionEffect where
  /-- `session_reschedule_inactivity_timer`: cancel, then add -/
  | rearmInactivity
  | cancelInactivity
  /-- the `add_timer` of `session_schedule_deferred_teardown` -/
  | addDeferred
  /-- the `add_timer` of `session_deferred_teardown_cb` -/
  | addSweep
  /-- `teardown_timer_id = CLOAK_TIMER_INVALID` -/
  | dropTeardown
  | cancelTeardown
  | free (h : StreamHandle)
deriving DecidableEq, Repr

namespace Session

/-! ## Effects, function by function -/

/-- `session_retire_stream`. -/
def retireEffects (s : Session) (h : StreamHandle) : List SessionEffect :=
  match s.entry h with
  | none => []
  | some e =>
    if e.retired then []
    else if s.activeStreamCount - 1 = 0 ∧ s.closed = false then [.rearmInactivity] else []

/-- `session_passive_close`. -/
def passiveCloseEffects (s : Session) : List SessionEffect :=
  if s.closed then [] else [.cancelInactivity, .addDeferred]

/-- `cloak_session_close`, up to the switchboard. -/
def closeEffects (evp : Evp) (s : Session) (env : ClosingEnv) : List SessionEffect :=
  if s.closed then []
  else
    match sealClosing evp s.config env with
    | none => [.cancelInactivity, .addDeferred]
    | some _ => [.cancelInactivity]

/-- `cloak_session_close_stream`. -/
def closeStreamEffects (evp : Evp) (s : Session) (h : StreamHandle) (env : ClosingEnv) :
    List SessionEffect :=
  match s.entry h with
  | none => []
  | some e =>
    if s.closed ∨ e.retired then []
    else
      match s.sendClosing evp h e env with
      | (s', false) => s'.retireEffects h
      | (_, true) => []

/-- `cloak_session_release_stream`. A pointer that is freed already is freed once more. -/
def releaseEffects (evp : Evp) (s : Session) (h : StreamHandle) (env : ClosingEnv) :
    List SessionEffect :=
  match s.entry h with
  | none => if h < s.heap.length then [.free h] else []
  | some e =>
    if e.retired then [.free h]
    else
      match s.sendClosing evp h e env with
      | (s', false) => s'.retireEffects h ++ [.free h]
      | (_, true) => []

/-- The rest of a call once the switchboard has answered. -/
def resumeEffects (s : Session) : PendingCall → List SessionEffect
  | .write _ _ => []
  | .closeStream h => s.retireEffects h
  | .releaseStream h => s.retireEffects h ++ [.free h]
  | .close => [.addDeferred]

/-- Routing a frame into stream `h`. -/
def feedEffects (s : Session) (h : StreamHandle) (frame : Frame) (allocs : FeedAllocs) :
    List SessionEffect :=
  match s.entry h with
  | none => []
  | some e =>
    if (e.stream.feedFrame frame allocs).2 = .ok then []
    else (s.setEntry h { e with stream := (e.stream.feedFrame frame allocs).1 }).retireEffects h

/-- `session_on_envelope`. -/
def envelopeEffects (evp : Evp) (s : Session) (bytes : List UInt8) (allocs : StreamAllocs)
    (feedAllocs : FeedAllocs) : List SessionEffect :=
  if s.closed then []
  else
    match Frame.deobfuscate evp s.config.obfuscator bytes with
    | none => []
    | some frame =>
      if frame.closing = closingSession then s.passiveCloseEffects
      else
        match s.streams.lookup frame.streamId with
        | some .tombstone => []
        | some (.active h) => s.feedEffects h frame feedAllocs
        | none =>
          match s.createStream frame.streamId allocs with
          | (_, none) => []
          | (s', some h) => s'.feedEffects h frame feedAllocs

/-- What a call into the session asks; its timers and its destruction are listed apart. -/
def callEffects (evp : Evp) (s : Session) : SessionEv → List SessionEffect
  | .closeStream h env => s.closeStreamEffects evp h env
  | .releaseStream h env => if s.inCall h then [] else s.releaseEffects evp h env
  | .close env => s.closeEffects evp env
  | .envelope bytes allocs feedAllocs => s.envelopeEffects evp bytes allocs feedAllocs
  | .sinkReturn _ _ =>
    match s.calls with
    | [] => []
    | c :: cs => resumeEffects { s with calls := cs } c
  | .poolBroken => s.passiveCloseEffects
  | _ => []

/-- `session_check_timeout`. -/
def checkTimeoutEffects (evp : Evp) (s : Session) (env : ClosingEnv) : List SessionEffect :=
  if s.activeStreamCount = 0 ∧ s.closed = false then s.closeEffects evp env else []

/-- `session_free_all_active_streams`. -/
def freeAllEffects (s : Session) : List SessionEffect :=
  s.streams.actives.map fun kh => .free kh.2

/-- `cloak_session_destroy`. -/
def destroyEffects (s : Session) : List SessionEffect :=
  (if s.closed then [] else [.cancelInactivity]) ++ .cancelTeardown :: s.freeAllEffects

/-! ## Acts -/

/-- How often the owner has heard that the session is broken. -/
def brokens (s : Session) : Nat := s.callbacks.count .broken

/-- Changes the books do not see: the ids handed out, the frames sealed, callbacks about streams. -/
structure Quiet (s s' : Session) : Prop where
  activeStreamCount : s'.activeStreamCount = s.activeStreamCount
  closed : s'.closed = s.closed
  streams : s'.streams = s.streams
  inactivityTimer : s'.inactivityTimer = s.inactivityTimer
  teardownTimer : s'.teardownTimer = s.teardownTimer
  destroyed : s'.destroyed = s.destroyed
  heap : s'.heap = s.heap
  calls : s'.calls = s.calls
  brokens : s'.brokens = s.brokens

/-- One act of the event `ev` on the session `s₀`, with what it asks. -/
inductive Act (s₀ : Session) (ev : SessionEv) : Session → List SessionEffect → Session → Prop
  | quiet {s s' : Session} : Quiet s s' → Act s₀ ev s [] s'
  | called {s : Session} {c : PendingCall} : c ≠ .close → (∀ h, c ≠ .releaseStream h) →
    Act s₀ ev s [] (s.push c)
  | returned {s : Session} {c : PendingCall} {cs : List PendingCall} : s.calls = c :: cs →
    c ≠ .close → (∀ h, c ≠ .releaseStream h) → Act s₀ ev s [] { s with calls := cs }
  | touched {s : Session} {h : StreamHandle} {e : StreamEntry} {st : Stream} :
    s.entry h = some e → st.id = e.stream.id →
    st.recv = e.stream.recv ∨ (∃ outCap, st = (e.stream.read outCap).1) →
    Act s₀ ev s [] (s.setEntry h { e with stream := st })
  | fed {s : Session} {h : StreamHandle} {e : StreamEntry} {frame : Frame} {allocs : FeedAllocs} :
    s.streams.lookup frame.streamId = some (.active h) → s.entry h = some e →
    Act s₀ ev s [] (s.setEntry h { e with stream := (e.stream.feedFrame frame allocs).1 })
  | retired {s : Session} (h : StreamHandle) : Act s₀ ev s (s.retireEffects h) (s.retireStream h)
  | created {s : Session} {id : UInt32} {st : Stream} {t : Strmtab StreamHandle} {alloc : Bool} :
    initStream s.config id = .ok st → s.streams.insertActive id s.heap.length alloc = (t, true) →
    Act s₀ ev s [] { s with
      streams := t
      heap := s.heap ++ [some ⟨st, false⟩]
      activeStreamCount := s.activeStreamCount + 1 }
  | regrown {s : Session} {t : Strmtab StreamHandle} : (∀ k, t.lookup k = s.streams.lookup k) →
    Act s₀ ev s [] { s with streams := t }
  | releasing {s : Session} {h : StreamHandle} {e : StreamEntry} {env : ClosingEnv} :
    ev = .releaseStream h env → s.inCall h = false → s.entry h = some e →
    Act s₀ ev s [] (s.push (.releaseStream h))
  | released {s : Session} {h : StreamHandle} {e : StreamEntry} {env : ClosingEnv} :
    ev = .releaseStream h env → s.inCall h = false → s.entry h = some e →
    Act s₀ ev s (s.retireEffects h ++ [.free h]) ((s.retireStream h).freeEntry h)
  | releaseReturned {s : Session} {h : StreamHandle} {cs : List PendingCall} :
    s.calls = .releaseStream h :: cs → Act s₀ ev s (s.retireEffects h ++ [.free h])
      ((retireStream { s with calls := cs } h).freeEntry h)
  | freedAgain {s : Session} {h : StreamHandle} {env : ClosingEnv} :
    ev = .releaseStream h env → s₀.inCall h = false → s₀.entry h = none → h < s₀.heap.length →
    Act s₀ ev s [.free h] s
  | closing {s : Session} : s.closed = false →
    Act s₀ ev s [.cancelInactivity] (s.closeInternal.push .close)
  | closedAtOnce {s : Session} : s.closed = false →
    Act s₀ ev s [.cancelInactivity, .addDeferred] s.closeInternal.scheduleTeardown
  | closeReturned {s : Session} {cs : List PendingCall} : s.calls = .close :: cs →
    Act s₀ ev s [.addDeferred] (scheduleTeardown { s with calls := cs })
  | swept {s : Session} {kh : UInt32 × StreamHandle} : ev = .teardownTimer ∨ ev = .destroy →
    s.closed = true → kh ∈ s.streams.actives → Act s₀ ev s [.free kh.2] (s.destroyStream kh)

/-- A chain of acts, with what they ask together. -/
inductive Acts (s₀ : Session) (ev : SessionEv) : Session → List SessionEffect → Session → Prop
  | none {s : Session} : Acts s₀ ev s [] s
  | more {s s₁ s₂ : Session} {fx fx' : List SessionEffect} : Act s₀ ev s fx s₁ → Acts s₀ ev s₁ fx' s₂ →
    Acts s₀ ev s (fx ++ fx') s₂

section Steps

variable {evp : Evp} {s₀ : Session} {ev : SessionEv} {s s₁ s₂ : Session} {fx fx' : List SessionEffect}

theorem Act.single (h : Act s₀ ev s fx s₁) : Acts s₀ ev s fx s₁ := by
  have hchain := Acts.more h .none
  rwa [List.append_nil] at hchain

theorem Acts.trans (h : Acts s₀ ev s fx s₁) (h' : Acts s₀ ev s₁ fx' s₂) : Acts s₀ ev s (fx ++ fx') s₂ := by
  induction h with
  | none => exact h'
  | more ha _ ih =>
    rw [List.append_assoc]
    exact .more ha (ih h')

/-- An act that asks nothing, before others. -/
theorem Act.before (h : Act s₀ ev s [] s₁) (h' : Acts s₀ ev s₁ fx s₂) : Acts s₀ ev s fx s₂ := .more h h'

/-- An act that asks nothing, after others. -/
theorem Acts.after (h : Acts s₀ ev s fx s₁) (h' : Act s₀ ev s₁ [] s₂) : Acts s₀ ev s fx s₂ := by
  have hchain := h.trans h'.single
  rwa [List.append_nil] at hchain

/-- A property that every act keeps, given what was asked before and with it. -/
theorem Acts.induction {P : List SessionEffect → Session → Prop}
    (hact : ∀ fx s₁ fx' s₂, Act s₀ ev s₁ fx' s₂ → P fx s₁ → P (fx ++ fx') s₂)
    (h : Acts s₀ ev s fx s₁) : P [] s → P fx s₁ := by
  have hgen : ∀ fx₀, P fx₀ s → P (fx₀ ++ fx) s₁ := by
    induction h with
    | none =>
      intro fx₀ h0
      rwa [List.append_nil]
    | more ha _ ih =>
      intro fx₀ h0
      rw [← List.append_assoc]
      exact ih _ (hact _ _ _ _ ha h0)
  exact fun h0 => hgen [] h0

/-- A property of states that every act keeps. -/
theorem Acts.invariant {P : Session → Prop} (hact : ∀ s₁ fx' s₂, Act s₀ ev s₁ fx' s₂ → P s₁ → P s₂)
    (h : Acts s₀ ev s fx s₁) (hs : P s) : P s₁ :=
  h.induction (P := fun _ => P) (fun _ s₁ fx' s₂ => hact s₁ fx' s₂) hs

/-! ## Every call is a chain of acts -/

theorem sealNext_acts {h : StreamHandle} {e : StreamEntry} (he : s.entry h = some e)
    (closing : UInt8) (payload : List UInt8) (draws : FrameDraws) :
    Acts s₀ ev s [] (s.sealNext evp h e closing payload draws).1 := by
  unfold sealNext
  split
  · next st hseal =>
    obtain rfl := Stream.sealFrame_none hseal
    have htouch : Act s₀ ev s [] (s.setEntry h { e with stream := e.stream.closeWrite }) :=
      .touched he rfl (Or.inl rfl)
    exact htouch.single.after (.quiet ⟨rfl, rfl, rfl, rfl, rfl, rfl, rfl, rfl, rfl⟩)
  · next st f hseal =>
    obtain ⟨rfl, _⟩ := Stream.sealFrame_some hseal
    refine Acts.after (Act.single (.touched he ?_ (Or.inl ?_)))
      (.quiet ⟨rfl, rfl, rfl, rfl, rfl, rfl, rfl, rfl, rfl⟩)
    · split <;> rfl
    · split <;> rfl

theorem writeNext_acts (h : StreamHandle) (rest : List UInt8) (draws : FrameDraws) :
    Acts s₀ ev s [] (s.writeNext evp h rest draws) := by
  unfold writeNext
  split
  · exact .none
  · next e he =>
    split
    · exact .none
    · have hacts : Acts s₀ ev s [] (s.sealNext evp h e closingNothing
          (rest.take e.stream.maxPayloadPerFrame) draws).1 := sealNext_acts he _ _ _
      split
      · next hseal =>
        rw [hseal] at hacts
        exact hacts
      · next hseal =>
        rw [hseal] at hacts
        exact hacts.after (.called (by simp) (by simp))

theorem writeStream_acts (h : StreamHandle) (bs : List UInt8) (draws : FrameDraws) :
    Acts s₀ ev s [] (s.writeStream evp h bs draws) := by
  unfold writeStream
  split
  · exact .none
  · split
    · exact .none
    · split
      · exact .none
      · exact writeNext_acts h bs draws

theorem sendClosing_acts {h : StreamHandle} {e : StreamEntry} (he : s.entry h = some e)
    (env : ClosingEnv) : Acts s₀ ev s [] (s.sendClosing evp h e env).1 := by
  unfold sendClosing
  split
  · exact .none
  · exact sealNext_acts he _ _ _

theorem passiveClose_acts : Acts s₀ ev s s.passiveCloseEffects s.passiveClose := by
  unfold passiveCloseEffects passiveClose
  split
  · exact .none
  · next hopen => exact Act.single (.closedAtOnce (Bool.eq_false_iff.mpr hopen))

theorem close_acts (env : ClosingEnv) : Acts s₀ ev s (s.closeEffects evp env) (s.close evp env) := by
  unfold closeEffects close
  cases hopen : s.closed with
  | true => exact .none
  | false =>
    cases hseal : sealClosing evp s.config env with
    | none =>
      have hquiet : Act s₀ ev s [] { s with sealFailures := s.sealFailures + 1 } :=
        .quiet ⟨rfl, rfl, rfl, rfl, rfl, rfl, rfl, rfl, rfl⟩
      have hclosed := @Act.closedAtOnce s₀ ev { s with sealFailures := s.sealFailures + 1 } hopen
      exact hquiet.before hclosed.single
    | some f =>
      have hquiet : Act s₀ ev s [] { s with sealed := s.sealed ++ [f] } :=
        .quiet ⟨rfl, rfl, rfl, rfl, rfl, rfl, rfl, rfl, rfl⟩
      have hclosed := @Act.closing s₀ ev { s with sealed := s.sealed ++ [f] } hopen
      exact hquiet.before hclosed.single

theorem closeStream_acts (h : StreamHandle) (env : ClosingEnv) :
    Acts s₀ ev s (s.closeStreamEffects evp h env) (s.closeStream evp h env) := by
  unfold closeStreamEffects closeStream
  cases he : s.entry h with
  | none => exact .none
  | some e =>
    dsimp only
    by_cases hdone : s.closed = true ∨ e.retired = true
    · rw [if_pos hdone, if_pos hdone]
      exact .none
    · rw [if_neg hdone, if_neg hdone]
      have hacts : Acts s₀ ev s [] (s.sendClosing evp h e env).1 := sendClosing_acts he env
      cases hsend : s.sendClosing evp h e env with
      | mk s' sent =>
        rw [hsend] at hacts
        cases sent with
        | false => exact hacts.trans (Act.single (.retired h))
        | true => exact hacts.after (.called (c := .closeStream h) (by simp) (by simp))

/-- Retiring a retired stream does nothing. -/
theorem retireStream_of_retired {h : StreamHandle} {e : StreamEntry} (he : s.entry h = some e)
    (hret : e.retired = true) : s.retireEffects h = [] ∧ s.retireStream h = s := by
  simp only [retireEffects, retireStream, he, hret, if_true, and_self]

theorem calls_sendClosing (h : StreamHandle) (e : StreamEntry) (env : ClosingEnv) :
    (s.sendClosing evp h e env).1.calls = s.calls := by
  unfold sendClosing sealNext
  split
  · rfl
  · split <;> rfl

theorem entry_sendClosing {h : StreamHandle} {e : StreamEntry} (he : s.entry h = some e)
    (env : ClosingEnv) : ∃ e', (s.sendClosing evp h e env).1.entry h = some e' := by
  unfold sendClosing sealNext
  split
  · exact ⟨e, he⟩
  · split
    · exact ⟨_, entry_setEntry_self he _⟩
    · exact ⟨_, entry_setEntry_self he _⟩

theorem releaseStream_acts (h : StreamHandle) (env : ClosingEnv) (hfree : s.inCall h = false) :
    Acts s (.releaseStream h env) s (s.releaseEffects evp h env) (s.releaseStream evp h env) := by
  unfold releaseEffects releaseStream
  cases he : s.entry h with
  | none =>
    dsimp only
    split
    · next hlt => exact Act.single (.freedAgain rfl hfree he hlt)
    · exact .none
  | some e =>
    dsimp only
    cases hret : e.retired with
    | true =>
      obtain ⟨hfx, hsame⟩ := retireStream_of_retired he hret
      have hact := @Act.released s (.releaseStream h env) s h e env rfl hfree he
      rw [hfx, hsame] at hact
      exact hact.single
    | false =>
      have hacts : Acts s (.releaseStream h env) s [] (s.sendClosing evp h e env).1 :=
        sendClosing_acts he env
      have hfree' : (s.sendClosing evp h e env).1.inCall h = false := by
        rw [inCall, calls_sendClosing]
        exact hfree
      obtain ⟨e', he'⟩ := @entry_sendClosing evp _ _ _ he env
      cases hsend : s.sendClosing evp h e env with
      | mk s' sent =>
        rw [hsend] at hacts hfree' he'
        cases sent with
        | false => exact hacts.trans (Act.single (.released rfl hfree' he'))
        | true => exact hacts.after (.releasing rfl hfree' he')

theorem resume_acts (ok : Bool) (draws : FrameDraws) {c : PendingCall} {cs : List PendingCall}
    (hcalls : s.calls = c :: cs) :
    Acts s₀ ev s (resumeEffects { s with calls := cs } c) (resume evp { s with calls := cs } ok draws c) := by
  cases c with
  | write h rest =>
    have hreturn : Act s₀ ev s [] { s with calls := cs } := .returned hcalls (by simp) (by simp)
    refine hreturn.before ?_
    dsimp only [resume]
    split
    · exact writeNext_acts h rest draws
    · unfold failWrite
      split
      · exact .none
      · next e he => exact Act.single (.touched he rfl (Or.inl rfl))
  | closeStream h =>
    have hreturn : Act s₀ ev s [] { s with calls := cs } := .returned hcalls (by simp) (by simp)
    exact hreturn.before (Act.single (.retired h))
  | releaseStream h => exact Act.single (.releaseReturned hcalls)
  | close => exact Act.single (.closeReturned hcalls)

theorem createStream_acts (id : UInt32) (allocs : StreamAllocs) :
    Acts s₀ ev s [] (s.createStream id allocs).1 := by
  rcases createStream_cases s id allocs with ⟨t, hlook, heq⟩ | ⟨st, t, hst, hins, heq⟩
  · rw [heq]
    exact Act.single (.regrown hlook)
  · rw [heq]
    exact Act.single (.created hst hins)

/-- A stream just created is the one the table knows its id by. -/
theorem lookup_createStream {id : UInt32} {allocs : StreamAllocs} {s' : Session} {h : StreamHandle}
    (hnew : s.createStream id allocs = (s', some h)) :
    s'.streams.lookup id = some (.active h) := by
  rcases createStream_cases s id allocs with ⟨t, hlook, heq⟩ | ⟨st, t, hst, hins, heq⟩
  · rw [heq] at hnew
    cases hnew
  · rw [heq] at hnew
    cases hnew
    have hcases := s.streams.insertActive_cases id s.heap.length allocs.table
    rw [hins] at hcases
    rcases hcases with ⟨hc, _⟩ | ⟨_, _, hlook⟩
    · cases hc
    · change t.lookup id = _
      rw [hlook, if_pos rfl]

theorem openStream_acts (allocs : StreamAllocs) : Acts s₀ ev s [] (s.openStream allocs) := by
  unfold openStream
  split
  · exact .none
  · have hdrew : Act s₀ ev s [] { s with nextStreamId := s.nextStreamId + 1 } :=
      .quiet ⟨rfl, rfl, rfl, rfl, rfl, rfl, rfl, rfl, rfl⟩
    have hacts := hdrew.before (createStream_acts s.nextStreamId allocs)
    split
    · next hnew =>
      rw [hnew] at hacts
      exact hacts
    · next hnew =>
      rw [hnew] at hacts
      exact hacts.after (.quiet ⟨rfl, rfl, rfl, rfl, rfl, rfl, rfl, rfl, rfl⟩)

/-- A callback about a stream. -/
theorem quiet_callback (s : Session) {c : SessionCallback} (hc : c ≠ .broken) :
    Quiet s (s.callback c) := by
  refine ⟨rfl, rfl, rfl, rfl, rfl, rfl, rfl, rfl, ?_⟩
  rw [brokens, callback, List.count_append, List.count_singleton, beq_eq_false_iff_ne.mpr hc]
  rfl

theorem feed_acts {h : StreamHandle} {frame : Frame} (allocs : FeedAllocs)
    (hlook : s.streams.lookup frame.streamId = some (.active h)) :
    Acts s₀ ev s (s.feedEffects h frame allocs) (s.feed h frame allocs) := by
  unfold feedEffects feed
  cases he : s.entry h with
  | none => exact .none
  | some e =>
    have hfed : Acts s₀ ev s [] ((s.setEntry h
        { e with stream := (e.stream.feedFrame frame allocs).1 }).callback (.fed frame.streamId)) :=
      (Act.single (.fed hlook he)).after (.quiet (quiet_callback _ (by simp)))
    dsimp only
    by_cases hok : (e.stream.feedFrame frame allocs).2 = .ok
    · rw [if_pos hok, if_pos hok]
      exact hfed
    · rw [if_neg hok, if_neg hok]
      exact hfed.trans (Act.single (.retired h))

theorem onEnvelope_acts (bytes : List UInt8) (allocs : StreamAllocs) (feedAllocs : FeedAllocs) :
    Acts s₀ ev s (s.envelopeEffects evp bytes allocs feedAllocs)
      (s.onEnvelope evp bytes allocs feedAllocs) := by
  unfold envelopeEffects onEnvelope
  cases hopen : s.closed with
  | true => exact .none
  | false =>
    cases hframe : Frame.deobfuscate evp s.config.obfuscator bytes with
    | none => exact .none
    | some frame =>
      by_cases hclosing : frame.closing = closingSession
      · simp only [if_pos hclosing]
        exact passiveClose_acts
      · simp only [if_neg hclosing]
        cases hlook : s.streams.lookup frame.streamId with
        | some entry =>
          cases entry with
          | tombstone => exact .none
          | active h => exact (feed_acts feedAllocs hlook).after (.quiet (quiet_callback _ (by simp)))
        | none =>
          have hacts : Acts s₀ ev s [] (s.createStream frame.streamId allocs).1 :=
            createStream_acts frame.streamId allocs
          cases hnew : s.createStream frame.streamId allocs with
          | mk s' made =>
            rw [hnew] at hacts
            cases made with
            | none => exact hacts
            | some h => exact hacts.trans ((feed_acts feedAllocs (lookup_createStream hnew)).after
                (.quiet (quiet_callback _ (by simp))))

/-- The sweep frees the active streams one by one; what is done to one leaves the others listed. -/
theorem freeAllActiveStreams_acts (hev : ev = .teardownTimer ∨ ev = .destroy)
    (hclosed : s.closed = true) : Acts s₀ ev s s.freeAllEffects s.freeAllActiveStreams := by
  have hgen : ∀ (l : List (UInt32 × StreamHandle)) (s : Session), s.closed = true →
      (l.map Prod.fst).Nodup → (∀ kh ∈ l, kh ∈ s.streams.actives) →
      Acts s₀ ev s (l.map fun kh => .free kh.2) (l.foldl destroyStream s) := by
    intro l
    induction l with
    | nil => exact fun _ _ _ _ => .none
    | cons kh l ih =>
      intro s hclosed hnodup hall
      obtain ⟨hnotin, hnodup⟩ := List.nodup_cons.mp hnodup
      refine .more (.swept hev hclosed (hall kh List.mem_cons_self))
        (ih _ hclosed hnodup fun kh' hmem => ?_)
      have hne : kh'.1 ≠ kh.1 := fun heq => hnotin (heq ▸ List.mem_map_of_mem hmem)
      have hold := Strmtab.mem_actives_iff.mp (hall kh' (List.mem_cons_of_mem _ hmem))
      refine Strmtab.mem_actives_iff.mpr ?_
      change (s.streams.tombstone kh.1).lookup kh'.1 = _
      rw [Strmtab.lookup_tombstone, if_neg hne, hold]
  exact hgen _ s hclosed s.streams.nodup_keys_actives fun _ hmem => hmem

theorem checkTimeout_acts (env : ClosingEnv) :
    Acts s₀ ev s (s.checkTimeoutEffects evp env) (s.checkTimeout evp env) := by
  unfold checkTimeoutEffects checkTimeout
  by_cases hidle : s.activeStreamCount = 0 ∧ s.closed = false
  · rw [if_pos hidle, if_pos hidle]
    exact close_acts env
  · rw [if_neg hidle, if_neg hidle]
    exact .none

/-- The events that are calls into the session, other than its timers and its destruction. -/
def isCall : SessionEv → Bool
  | .inactivityTimer _ => false
  | .teardownTimer => false
  | .destroy => false
  | _ => true

/-- What a call can do, and what it asks. -/
theorem call_acts (hlive : s.destroyed = false) (hcall : isCall ev = true) :
    Acts s ev s (s.callEffects evp ev) (s.step evp ev) := by
  unfold step callEffects
  rw [if_neg (by rw [hlive]; exact Bool.false_ne_true)]
  cases ev with
  | openStream allocs => exact openStream_acts allocs
  | write h bs draws => exact writeStream_acts h bs draws
  | read h outCap =>
    dsimp only [readStream]
    split
    · exact .none
    · next e he =>
      exact Act.single (.touched he (Stream.sameWrite_read _ _).id (Or.inr ⟨outCap, rfl⟩))
  | closeStream h env => exact closeStream_acts h env
  | releaseStream h env =>
    dsimp only
    cases hin : s.inCall h with
    | true => exact .none
    | false => exact releaseStream_acts h env hin
  | close env => exact close_acts env
  | envelope bytes allocs feedAllocs => exact onEnvelope_acts bytes allocs feedAllocs
  | sinkReturn ok draws =>
    dsimp only
    cases hcalls : s.calls with
    | nil => exact .none
    | cons c cs => exact resume_acts ok draws hcalls
  | poolBroken => exact passiveClose_acts
  | inactivityTimer env => cases hcall
  | teardownTimer => cases hcall
  | destroy => cases hcall

end Steps

end Session

end Cloak
