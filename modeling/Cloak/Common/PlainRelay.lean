import Cloak.Common.ByteQueue
import Cloak.Lib.Run
import Mathlib.Data.List.Infix

set_option autoImplicit false

/-! # The plain relay (`relay.c`)

A relay splices two sockets: what it reads from one it queues and sends to the other. Its events are
those of an edge-triggered reactor, so a registration that is not renewed after the last read or
write may never be heard of again; `sync_interest` renews both after every event.

What the kernel answers comes with the event, one answer for each call, and a loop that runs out of
answers was told `EAGAIN`. The relay keeps a record `io` of what it read, sent and registered, which
no operation reads. -/

namespace Cloak

/-- The two sides of a relay. A preload goes to `b`. -/
inductive RelaySide where
  | a
  | b
deriving DecidableEq, Repr

/-- `1 - i`. -/
def RelaySide.other : RelaySide → RelaySide
  | .a => .b
  | .b => .a

@[simp] theorem RelaySide.other_other (i : RelaySide) : i.other.other = i := by cases i <;> rfl

@[simp] theorem RelaySide.other_ne (i : RelaySide) : i.other ≠ i := by cases i <;> decide

@[simp] theorem RelaySide.ne_other (i : RelaySide) : i ≠ i.other := by cases i <;> decide

/-- A set of `CLOAK_REACTOR_READABLE` and `CLOAK_REACTOR_WRITABLE`. -/
structure RelayInterest where
  readable : Bool
  writable : Bool
deriving DecidableEq, Repr

def RelayInterest.none : RelayInterest := ⟨false, false⟩

/-- The kernel's answer to a `read`. `data []` is the end of the stream. -/
inductive ReadAnswer where
  | data (bs : List UInt8)
  | intr
  | again
  | failed
deriving DecidableEq, Repr

/-- The kernel's answer to a `send`. -/
inductive SendAnswer where
  | took (n : Nat)
  | intr
  | again
  | failed
deriving DecidableEq, Repr

/-- One entry of the record of a relay. -/
inductive RelayIo where
  | read (i : RelaySide) (bs : List UInt8)
  | sent (i : RelaySide) (bs : List UInt8)
  | mod (i : RelaySide) (ev : RelayInterest)
deriving DecidableEq, Repr

/-- `RELAY_CHUNK`. -/
def relayChunk : Nat := 16384

/-- `cloak_relay_t`. A descriptor of -1 is `none`; `registered` is the reactor's record of what
    each descriptor is watched for, `interest` is the relay's own. -/
structure PlainRelay where
  q : RelaySide → ByteQueue
  fd : RelaySide → Option Nat
  readEof : RelaySide → Bool
  interest : RelaySide → RelayInterest
  registered : RelaySide → RelayInterest
  done : Bool
  io : List RelayIo

namespace PlainRelay

/-- `desired_interest`. -/
def desiredInterest (rl : PlainRelay) (i : RelaySide) : RelayInterest where
  readable := !rl.readEof i && decide (0 < (rl.q i).freeSpace)
  writable := decide (0 < (rl.q i.other).len)

/-- A turn of the loop of `sync_interest`. -/
def syncSide (rl : PlainRelay) (i : RelaySide) : PlainRelay :=
  if rl.fd i = none then rl
  else if rl.desiredInterest i = .none ∧ rl.interest i = .none then rl
  else
    { rl with
      registered := Function.update rl.registered i (rl.desiredInterest i)
      interest := Function.update rl.interest i (rl.desiredInterest i)
      io := rl.io ++ [.mod i (rl.desiredInterest i)] }

/-- `sync_interest`. -/
def syncInterest (rl : PlainRelay) : PlainRelay := (rl.syncSide .a).syncSide .b

/-- The bytes of one `read` go into the queue. -/
def takeIn (rl : PlainRelay) (i : RelaySide) (bs : List UInt8) : PlainRelay :=
  { rl with
    q := Function.update rl.q i ((rl.q i).write bs).1
    io := rl.io ++ [.read i bs] }

/-- The bytes of one `send` leave the queue. -/
def sendOut (rl : PlainRelay) (i : RelaySide) (n : Nat) : PlainRelay :=
  { rl with
    q := Function.update rl.q i.other ((rl.q i.other).read n).2
    io := rl.io ++ [.sent i ((rl.q i.other).read n).1] }

/-- `pump_read`; `false` is its `-1`. -/
def pumpRead (i : RelaySide) : List ReadAnswer → PlainRelay → PlainRelay × Bool
  | [], rl => (rl, true)
  | answer :: answers, rl =>
    if (rl.q i).freeSpace = 0 then (rl, true)
    else
      match answer with
      | .data bs =>
        if bs.take (min (rl.q i).freeSpace relayChunk) = [] then
          ({ rl with readEof := Function.update rl.readEof i true }, false)
        else pumpRead i answers (rl.takeIn i (bs.take (min (rl.q i).freeSpace relayChunk)))
      | .intr => pumpRead i answers rl
      | .again => (rl, true)
      | .failed => (rl, false)

/-- `pump_write`; `false` is its `-1`. -/
def pumpWrite (i : RelaySide) : List SendAnswer → PlainRelay → PlainRelay × Bool
  | [], rl => (rl, true)
  | answer :: answers, rl =>
    if (rl.q i.other).peek relayChunk = [] then (rl, true)
    else
      match answer with
      | .took n =>
        if min n ((rl.q i.other).peek relayChunk).length = 0 then (rl, false)
        else pumpWrite i answers (rl.sendOut i (min n ((rl.q i.other).peek relayChunk).length))
      | .intr => pumpWrite i answers rl
      | .again => (rl, true)
      | .failed => (rl, false)

/-- `relay_teardown`. The queues are not looked at after it. -/
def teardown (rl : PlainRelay) : PlainRelay :=
  if rl.done then rl else { rl with done := true, fd := fun _ => none }

/-- What the reactor reports, with the answers to the calls of the handler in their order:
    the writes to the descriptor itself, the reads, the reads and writes of the best-effort pass
    or the writes to the peer, and the last writes. -/
structure RelayEvent where
  fd : Nat
  events : RelayInterest
  writes : List SendAnswer
  reads : List ReadAnswer
  peerReads : List ReadAnswer
  peerWrites : List SendAnswer
  lastWrites : List SendAnswer

/-- The read side of `relay_on_event`; `false` when it tore the relay down. -/
def onReadable (rl : PlainRelay) (i : RelaySide) (ev : RelayEvent) : PlainRelay × Bool :=
  match pumpRead i ev.reads rl with
  | (rl, false) =>
    -- one side ended: read and flush what is still in flight
    let rl := (pumpRead i.other ev.peerReads rl).1
    let rl := (pumpWrite i.other ev.peerWrites rl).1
    let rl := (pumpWrite i ev.lastWrites rl).1
    (rl.teardown, false)
  | (rl, true) =>
    match pumpWrite i.other ev.peerWrites rl with
    | (rl, false) => (rl.teardown, false)
    | (rl, true) => (rl, true)

/-- `relay_on_event`. -/
def onEvent (rl : PlainRelay) (ev : RelayEvent) : PlainRelay :=
  if rl.done then rl
  else
    let i : RelaySide := if some ev.fd = rl.fd .a then .a else .b
    match if ev.events.writable then pumpWrite i ev.writes rl else (rl, true) with
    | (rl, false) => rl.teardown
    | (rl, true) =>
      match if ev.events.readable then rl.onReadable i ev else (rl, true) with
      | (rl, false) => rl
      | (rl, true) => rl.syncInterest

/-- A relay whose descriptors were just registered for reading. -/
def opened (fdA fdB : Nat) (qA qB : ByteQueue) : PlainRelay where
  q := fun | .a => qA | .b => qB
  fd := fun | .a => some fdA | .b => some fdB
  readEof := fun _ => false
  interest := fun _ => ⟨true, false⟩
  registered := fun _ => ⟨true, false⟩
  done := false
  io := []

/-- `cloak_relay_start`, for descriptors that are not negative. The last arguments say whether
    the queues can be allocated and the descriptors be registered. -/
def start (fdA fdB : Nat) (preload : List UInt8) (bufCap : Nat) (memA memB addA addB : Bool) :
    Option PlainRelay :=
  if bufCap = 0 then none
  else if bufCap < preload.length then none
  else
    match if memA then ByteQueue.init bufCap else none, if memB then ByteQueue.init bufCap else none with
    | some qA, some qB =>
      if addA = false ∨ addB = false then none
      else
        some (opened fdA fdB (qA.write preload).1 qB).syncInterest
    | _, _ => none

/-- What happens to a relay once it is started: an event, or `cloak_relay_stop`. -/
inductive Event where
  | ready (ev : RelayEvent)
  | stop

def step (rl : PlainRelay) : Event → PlainRelay
  | .ready ev => rl.onEvent ev
  | .stop => rl.teardown

/-! ## What was read and sent -/

/-- The bytes read from side `i`. -/
def readFrom (i : RelaySide) (io : List RelayIo) : List UInt8 :=
  io.flatMap fun | .read j bs => if j = i then bs else [] | _ => []

/-- The bytes sent to side `i`. -/
def sentTo (i : RelaySide) (io : List RelayIo) : List UInt8 :=
  io.flatMap fun | .sent j bs => if j = i then bs else [] | _ => []

@[simp] theorem readFrom_append (i : RelaySide) (io io' : List RelayIo) :
    readFrom i (io ++ io') = readFrom i io ++ readFrom i io' := List.flatMap_append

@[simp] theorem sentTo_append (i : RelaySide) (io io' : List RelayIo) :
    sentTo i (io ++ io') = sentTo i io ++ sentTo i io' := List.flatMap_append

/-- What is to be sent to side `i`: the preload, if it goes there, and what the other side sent. -/
def owed (preload : List UInt8) (i : RelaySide) (io : List RelayIo) : List UInt8 :=
  (if i = .b then preload else []) ++ readFrom i.other io

/-- At every moment each side was sent a prefix of what is owed to it. -/
def Safe (preload : List UInt8) (io : List RelayIo) : Prop :=
  ∀ h, h <+: io → ∀ i, sentTo i h <+: owed preload i h

theorem Safe.append {preload : List UInt8} {io : List RelayIo} {x : RelayIo} (h : Safe preload io)
    (hx : ∀ i, sentTo i (io ++ [x]) <+: owed preload i (io ++ [x])) : Safe preload (io ++ [x]) := by
  intro h' hh' i
  rcases List.prefix_concat_iff.mp hh' with rfl | hh'
  · exact hx i
  · exact h h' hh' i

/-- The last thing done about side `i`, after all reads and writes, was to register it anew. -/
def Renewed (io : List RelayIo) (i : RelaySide) (ev : RelayInterest) : Prop :=
  ∃ h t, io = h ++ t ∧ .mod i ev ∈ t ∧ ∀ x ∈ t, ∃ j ev', x = .mod j ev'

/-- The queues hold what was read and not sent. -/
structure Flowing (preload : List UInt8) (rl : PlainRelay) : Prop where
  unclosed : ∀ i, (rl.q i).closed = false
  safe : Safe preload rl.io
  exact : ∀ i, sentTo i rl.io ++ (rl.q i.other).contents = owed preload i rl.io

variable {preload : List UInt8} {rl : PlainRelay} {i : RelaySide}

theorem Flowing.takeIn (h : rl.Flowing preload) {bs : List UInt8}
    (hfit : bs.length ≤ (rl.q i).freeSpace) : (rl.takeIn i bs).Flowing preload := by
  have hexact : ∀ j, sentTo j (rl.io ++ [.read i bs]) ++
      (Function.update rl.q i ((rl.q i).write bs).1 j.other).contents =
        owed preload j (rl.io ++ [.read i bs]) := by
    intro j
    have hj := h.exact j
    rw [owed] at hj ⊢
    rw [sentTo_append, readFrom_append, ← List.append_assoc, ← hj]
    by_cases hji : j.other = i
    · subst hji
      rw [Function.update_self, ByteQueue.contents_write _ _ (h.unclosed _) hfit]
      simp [sentTo, readFrom]
    · rw [Function.update_of_ne hji]
      simp [sentTo, readFrom, Ne.symm hji]
  constructor
  · intro j
    dsimp only [PlainRelay.takeIn]
    by_cases hji : j = i
    · subst hji
      rw [Function.update_self, ByteQueue.closed_write]
      exact h.unclosed j
    · rw [Function.update_of_ne hji]
      exact h.unclosed j
  · exact h.safe.append fun j => ⟨_, hexact j⟩
  · exact hexact

theorem Flowing.sendOut (h : rl.Flowing preload) (n : Nat) : (rl.sendOut i n).Flowing preload := by
  have hexact : ∀ j, sentTo j (rl.io ++ [.sent i ((rl.q i.other).read n).1]) ++
      (Function.update rl.q i.other ((rl.q i.other).read n).2 j.other).contents =
        owed preload j (rl.io ++ [.sent i ((rl.q i.other).read n).1]) := by
    intro j
    have hj := h.exact j
    rw [owed] at hj ⊢
    have hread : readFrom j.other (rl.io ++ [.sent i ((rl.q i.other).read n).1]) =
        readFrom j.other rl.io := by simp [readFrom]
    rw [hread, ← hj, sentTo_append]
    by_cases hji : j = i
    · subst hji
      rw [Function.update_self, ByteQueue.contents_read, ByteQueue.read_fst]
      simp [sentTo]
    · have hne : j.other ≠ i.other := by
        intro heq
        exact hji (by rw [← j.other_other, heq, i.other_other])
      rw [Function.update_of_ne hne]
      simp [sentTo, Ne.symm hji]
  constructor
  · intro j
    dsimp only [PlainRelay.sendOut]
    by_cases hji : j = i.other
    · subst hji
      rw [Function.update_self, ByteQueue.closed_read]
      exact h.unclosed _
    · rw [Function.update_of_ne hji]
      exact h.unclosed j
  · exact h.safe.append fun j => ⟨_, hexact j⟩
  · exact hexact

/-- A pump leaves the descriptors and their registrations alone. -/
structure Framed (rl rl' : PlainRelay) : Prop where
  fd : rl'.fd = rl.fd
  interest : rl'.interest = rl.interest
  registered : rl'.registered = rl.registered
  done : rl'.done = rl.done

@[refl] theorem Framed.refl (rl : PlainRelay) : Framed rl rl := ⟨rfl, rfl, rfl, rfl⟩

@[trans] theorem Framed.trans {rl rl' rl'' : PlainRelay} (h : Framed rl rl') (h' : Framed rl' rl'') :
    Framed rl rl'' :=
  ⟨h'.fd.trans h.fd, h'.interest.trans h.interest, h'.registered.trans h.registered,
    h'.done.trans h.done⟩

theorem takeIn_framed (rl : PlainRelay) (i : RelaySide) (bs : List UInt8) :
    Framed rl (rl.takeIn i bs) := ⟨rfl, rfl, rfl, rfl⟩

theorem sendOut_framed (rl : PlainRelay) (i : RelaySide) (n : Nat) :
    Framed rl (rl.sendOut i n) := ⟨rfl, rfl, rfl, rfl⟩

theorem pumpRead_spec (answers : List ReadAnswer) (h : rl.Flowing preload) :
    (pumpRead i answers rl).1.Flowing preload ∧ Framed rl (pumpRead i answers rl).1 ∧
      ((pumpRead i answers rl).2 = true → (pumpRead i answers rl).1.readEof = rl.readEof) := by
  induction answers generalizing rl with
  | nil => exact ⟨h, .refl rl, fun _ => rfl⟩
  | cons answer answers ih =>
    unfold pumpRead
    split
    · exact ⟨h, .refl rl, fun _ => rfl⟩
    · cases answer with
      | data bs =>
        dsimp only
        split
        · exact ⟨⟨h.unclosed, h.safe, h.exact⟩, ⟨rfl, rfl, rfl, rfl⟩, by simp⟩
        · have hfit : (bs.take (min (rl.q i).freeSpace relayChunk)).length ≤ (rl.q i).freeSpace := by
            rw [List.length_take]
            omega
          obtain ⟨hflow, hframe, heof⟩ := ih (h.takeIn hfit)
          exact ⟨hflow, (rl.takeIn_framed i _).trans hframe, heof⟩
      | intr => exact ih h
      | again => exact ⟨h, .refl rl, fun _ => rfl⟩
      | failed => exact ⟨h, .refl rl, by simp⟩

theorem pumpWrite_spec (answers : List SendAnswer) (h : rl.Flowing preload) :
    (pumpWrite i answers rl).1.Flowing preload ∧ Framed rl (pumpWrite i answers rl).1 ∧
      (pumpWrite i answers rl).1.readEof = rl.readEof := by
  induction answers generalizing rl with
  | nil => exact ⟨h, .refl rl, rfl⟩
  | cons answer answers ih =>
    unfold pumpWrite
    split
    · exact ⟨h, .refl rl, rfl⟩
    · cases answer with
      | took n =>
        dsimp only
        split
        · exact ⟨h, .refl rl, rfl⟩
        · obtain ⟨hflow, hframe, heof⟩ := ih (h.sendOut (i := i)
            (min n ((rl.q i.other).peek relayChunk).length))
          exact ⟨hflow, (rl.sendOut_framed i _).trans hframe, heof⟩
      | intr => exact ih h
      | again => exact ⟨h, .refl rl, rfl⟩
      | failed => exact ⟨h, .refl rl, rfl⟩

/-! ## The registrations -/

/-- What holds between the events of a relay that is not done, short of the registrations being
    the ones desired. -/
structure Live (preload : List UInt8) (rl : PlainRelay) : Prop where
  flowing : rl.Flowing preload
  isOpen : ∀ i, rl.fd i ≠ none
  noEof : ∀ i, rl.readEof i = false
  registered : rl.registered = rl.interest

theorem Live.framed {rl' : PlainRelay} (h : rl.Live preload) (hflow : rl'.Flowing preload)
    (hframe : Framed rl rl') (heof : rl'.readEof = rl.readEof) : rl'.Live preload where
  flowing := hflow
  isOpen := hframe.fd ▸ h.isOpen
  noEof := heof ▸ h.noEof
  registered := by rw [hframe.registered, hframe.interest, h.registered]

/-- Side `i` is registered for what it needs, and anew unless it needs nothing. -/
def Armed (rl : PlainRelay) (i : RelaySide) : Prop :=
  rl.registered i = rl.desiredInterest i ∧
    (rl.desiredInterest i ≠ .none → Renewed rl.io i (rl.desiredInterest i))

theorem Renewed.mod {io : List RelayIo} {ev : RelayInterest} (h : Renewed io i ev) (j : RelaySide)
    (ev' : RelayInterest) : Renewed (io ++ [.mod j ev']) i ev := by
  obtain ⟨h, t, rfl, hmem, hall⟩ := h
  refine ⟨h, t ++ [.mod j ev'], by rw [List.append_assoc], List.mem_append_left _ hmem, ?_⟩
  intro x hx
  rcases List.mem_append.mp hx with hx | hx
  · exact hall x hx
  · exact ⟨j, ev', List.mem_singleton.mp hx⟩

/-- `sync_interest` arms the side it is at, and changes nothing that the other side needs. -/
theorem Live.syncSide (h : rl.Live preload) (i : RelaySide) :
    (rl.syncSide i).Live preload ∧ (rl.syncSide i).done = rl.done ∧ (rl.syncSide i).Armed i ∧
      ∀ j, j ≠ i → rl.Armed j → (rl.syncSide i).Armed j := by
  unfold PlainRelay.syncSide
  rw [if_neg (h.isOpen i)]
  split
  · rename_i hnone
    refine ⟨h, rfl, ⟨?_, fun hne => absurd hnone.1 hne⟩, fun j _ hj => hj⟩
    rw [h.registered, hnone.1, hnone.2]
  · have hsent : ∀ j, sentTo j (rl.io ++ [.mod i (rl.desiredInterest i)]) = sentTo j rl.io := by
      intro j
      simp [sentTo]
    have howed : ∀ j, owed preload j (rl.io ++ [.mod i (rl.desiredInterest i)]) =
        owed preload j rl.io := by
      intro j
      simp [owed, readFrom]
    refine ⟨⟨⟨h.flowing.unclosed, ?_, ?_⟩, h.isOpen, h.noEof, ?_⟩, rfl, ⟨?_, ?_⟩, ?_⟩
    · refine h.flowing.safe.append fun j => ?_
      rw [hsent, howed]
      exact h.flowing.safe rl.io (List.prefix_refl _) j
    · intro j
      dsimp only
      rw [hsent, howed]
      exact h.flowing.exact j
    · dsimp only
      rw [h.registered]
    · exact Function.update_self ..
    · exact fun _ => ⟨rl.io, [.mod i (rl.desiredInterest i)], rfl, List.mem_cons_self,
        fun x hx => ⟨i, _, List.mem_singleton.mp hx⟩⟩
    · rintro j hj ⟨hreg, hrenewed⟩
      exact ⟨(Function.update_of_ne hj ..).trans hreg, fun hne => (hrenewed hne).mod i _⟩

theorem Live.syncInterest (h : rl.Live preload) :
    rl.syncInterest.Live preload ∧ rl.syncInterest.done = rl.done ∧ ∀ i, rl.syncInterest.Armed i := by
  obtain ⟨hlive, hdone, harmed, _⟩ := h.syncSide .a
  obtain ⟨hlive', hdone', harmed', hkept⟩ := hlive.syncSide .b
  refine ⟨hlive', hdone'.trans hdone, fun i => ?_⟩
  cases i with
  | a => exact hkept .a (by decide) harmed
  | b => exact harmed'

/-- What every event keeps: a relay that is not done is live and armed. -/
structure Running (preload : List UInt8) (rl : PlainRelay) : Prop where
  safe : Safe preload rl.io
  live : rl.done = false → rl.Live preload
  armed : rl.done = false → ∀ i, rl.Armed i

theorem Flowing.teardown (h : rl.Flowing preload) (hdone : rl.done = false) :
    rl.teardown.Running preload ∧ rl.teardown.done = true := by
  rw [PlainRelay.teardown, hdone]
  exact ⟨⟨h.safe, by simp, by simp⟩, rfl⟩

theorem Live.onReadable (h : rl.Live preload) (hdone : rl.done = false) (ev : RelayEvent) :
    ((rl.onReadable i ev).2 = false → (rl.onReadable i ev).1.Running preload) ∧
      ((rl.onReadable i ev).2 = true →
        (rl.onReadable i ev).1.Live preload ∧ (rl.onReadable i ev).1.done = false) := by
  unfold PlainRelay.onReadable
  obtain ⟨hflow, hframe, heof⟩ := pumpRead_spec (i := i) ev.reads h.flowing
  cases hread : pumpRead i ev.reads rl with
  | mk rl₁ ok =>
    rw [hread] at hflow hframe heof
    cases ok with
    | false =>
      obtain ⟨hflow₂, hframe₂, _⟩ := pumpRead_spec (i := i.other) ev.peerReads hflow
      obtain ⟨hflow₃, hframe₃, _⟩ := pumpWrite_spec (i := i.other) ev.peerWrites hflow₂
      obtain ⟨hflow₄, hframe₄, _⟩ := pumpWrite_spec (i := i) ev.lastWrites hflow₃
      have hframes := ((hframe.trans hframe₂).trans hframe₃).trans hframe₄
      exact ⟨fun _ => (hflow₄.teardown (hframes.done.trans hdone)).1, by simp⟩
    | true =>
      dsimp only
      have hlive := h.framed hflow hframe (heof rfl)
      obtain ⟨hflow₂, hframe₂, heof₂⟩ := pumpWrite_spec (i := i.other) ev.peerWrites hflow
      cases hwrite : pumpWrite i.other ev.peerWrites rl₁ with
      | mk rl₂ ok =>
        rw [hwrite] at hflow₂ hframe₂ heof₂
        have hdone₂ : rl₂.done = false := (hframe.trans hframe₂).done.trans hdone
        cases ok with
        | false => exact ⟨fun _ => (hflow₂.teardown hdone₂).1, by simp⟩
        | true => exact ⟨by simp, fun _ => ⟨hlive.framed hflow₂ hframe₂ heof₂, hdone₂⟩⟩

theorem Live.sync_running (h : rl.Live preload) : rl.syncInterest.Running preload := by
  obtain ⟨hlive, _, harmed⟩ := h.syncInterest
  exact ⟨hlive.flowing.safe, fun _ => hlive, fun _ => harmed⟩

theorem Running.onEvent (h : rl.Running preload) (ev : RelayEvent) :
    (rl.onEvent ev).Running preload := by
  unfold PlainRelay.onEvent
  by_cases hdone : rl.done = true
  · rw [if_pos hdone]
    exact h
  · rw [if_neg hdone]
    have hdone' : rl.done = false := by simpa using hdone
    have hlive := h.live hdone'
    dsimp only
    generalize (if some ev.fd = rl.fd .a then RelaySide.a else RelaySide.b) = i
    obtain ⟨rl₁, ok, hwrite, hflow, hframe, heof⟩ : ∃ rl₁ ok,
        (if ev.events.writable then pumpWrite i ev.writes rl else (rl, true)) = (rl₁, ok) ∧
          rl₁.Flowing preload ∧ Framed rl rl₁ ∧ rl₁.readEof = rl.readEof := by
      split
      · exact ⟨_, _, rfl, pumpWrite_spec ev.writes hlive.flowing⟩
      · exact ⟨rl, true, rfl, hlive.flowing, .refl rl, rfl⟩
    rw [hwrite]
    have hdone₁ : rl₁.done = false := hframe.done.trans hdone'
    have hlive₁ := hlive.framed hflow hframe heof
    cases ok with
    | false => exact (hflow.teardown hdone₁).1
    | true =>
      obtain ⟨rl₂, ok, hread, hended, hlive₂⟩ : ∃ rl₂ ok,
          (if ev.events.readable then rl₁.onReadable i ev else (rl₁, true)) = (rl₂, ok) ∧
            (ok = false → rl₂.Running preload) ∧ (ok = true → rl₂.Live preload) := by
        split
        · obtain ⟨hended, hlive₂⟩ := hlive₁.onReadable (i := i) hdone₁ ev
          exact ⟨_, _, rfl, hended, fun hok => (hlive₂ hok).1⟩
        · exact ⟨rl₁, true, rfl, by simp, fun _ => hlive₁⟩
      dsimp only
      rw [hread]
      cases ok with
      | false => exact hended rfl
      | true => exact (hlive₂ rfl).sync_running

theorem Running.step (h : rl.Running preload) (e : Event) : (rl.step e).Running preload := by
  cases e with
  | ready ev => exact h.onEvent ev
  | stop =>
    change rl.teardown.Running preload
    by_cases hdone : rl.done = true
    · rw [teardown, if_pos hdone]
      exact h
    · have hdone' : rl.done = false := by simpa using hdone
      exact ((h.live hdone').flowing.teardown hdone').1

theorem opened_live {fdA fdB : Nat} {qA qB : ByteQueue} (hopenA : qA.closed = false)
    (hopenB : qB.closed = false) (hA : qA.contents = preload) (hB : qB.contents = []) :
    (opened fdA fdB qA qB).Live preload where
  flowing :=
    { unclosed := by
        rintro (_ | _)
        · exact hopenA
        · exact hopenB
      safe := by
        intro h hh i
        rw [List.prefix_nil.mp hh]
        exact List.nil_prefix
      exact := by
        rintro (_ | _)
        · exact hB
        · change qA.contents = preload ++ []
          rw [hA, List.append_nil] }
  isOpen := by rintro (_ | _) <;> simp [opened]
  noEof := fun _ => rfl
  registered := rfl

/-- A relay is started only with a preload that fits its buffer, and then it is live and armed. -/
theorem start_running {fdA fdB bufCap : Nat} {memA memB addA addB : Bool}
    (h : start fdA fdB preload bufCap memA memB addA addB = some rl) :
    preload.length ≤ bufCap ∧ rl.done = false ∧ rl.Running preload := by
  unfold start at h
  split at h
  · cases h
  · split at h
    · cases h
    · rename_i hlen
      split at h
      · rename_i qA qB hA hB
        split at h
        · cases h
        · obtain rfl := Option.some.inj h
          have hqA : ByteQueue.init bufCap = some qA := by
            cases memA with
            | true => exact hA
            | false => cases hA
          have hqB : ByteQueue.init bufCap = some qB := by
            cases memB with
            | true => exact hB
            | false => cases hB
          obtain ⟨hnilA, hopenA, hcapA⟩ := ByteQueue.init_spec hqA
          obtain ⟨hnilB, hopenB, _⟩ := ByteQueue.init_spec hqB
          have hfit : preload.length ≤ qA.freeSpace := by
            have hlenA := qA.length_contents
            rw [hnilA, List.length_nil] at hlenA
            rw [ByteQueue.freeSpace, hcapA, ← hlenA]
            omega
          have hput := ByteQueue.contents_write qA preload hopenA hfit
          rw [hnilA, List.nil_append] at hput
          have hlive : (opened fdA fdB (qA.write preload).1 qB).Live preload :=
            opened_live (by rw [ByteQueue.closed_write]; exact hopenA) hopenB hput hnilB
          exact ⟨not_lt.mp hlen, hlive.syncInterest.2.1, hlive.sync_running⟩
      · cases h

theorem readFrom_syncSide (rl : PlainRelay) (i j : RelaySide) :
    readFrom j (rl.syncSide i).io = readFrom j rl.io := by
  unfold syncSide
  split
  · rfl
  · split
    · rfl
    · simp [readFrom]

/-- Starting a relay reads nothing. -/
theorem start_readFrom {fdA fdB bufCap : Nat} {memA memB addA addB : Bool}
    (h : start fdA fdB preload bufCap memA memB addA addB = some rl) (i : RelaySide) :
    readFrom i rl.io = [] := by
  unfold start at h
  split at h
  · cases h
  · split at h
    · cases h
    · split at h
      · split at h
        · cases h
        · obtain rfl := Option.some.inj h
          rw [syncInterest, readFrom_syncSide, readFrom_syncSide]
          rfl
      · cases h

/-- With memory and a reactor that takes the descriptors, a preload that fits is enough. -/
theorem start_isSome (preload : List UInt8) (fdA fdB : Nat) {bufCap : Nat} (hpos : 0 < bufCap)
    (hfit : preload.length ≤ bufCap) :
    ∃ rl, start fdA fdB preload bufCap true true true true = some rl := by
  obtain ⟨q, hq⟩ := ByteQueue.init_isSome hpos
  unfold start
  rw [if_neg (by omega), if_neg (by omega)]
  simp only [if_true, hq]
  exact ⟨_, rfl⟩

/-! ## Main result -/

/-- In every run of a relay each side was at every moment sent a prefix of the preload, if it goes
    there, and the bytes read from the other side; and after every event that does not end the relay
    each side is registered for reading exactly if its queue has room, for writing exactly if the
    other queue is not empty, and anew since the last read and write if for anything. -/
theorem relay_safe {preload : List UInt8} {fdA fdB bufCap : Nat} {memA memB addA addB : Bool}
    {rl : PlainRelay} (h : start fdA fdB preload bufCap memA memB addA addB = some rl)
    (es : List Event) :
    Safe preload (Lib.run step rl es).io ∧
      ((Lib.run step rl es).done = false → ∀ i,
        (Lib.run step rl es).registered i =
          ⟨decide (0 < ((Lib.run step rl es).q i).freeSpace),
            decide (0 < ((Lib.run step rl es).q i.other).len)⟩ ∧
        ((Lib.run step rl es).registered i ≠ .none →
          Renewed (Lib.run step rl es).io i ((Lib.run step rl es).registered i))) := by
  have hrun : (Lib.run step rl es).Running preload :=
    Lib.run_invariant (start_running h).2.2 (fun _ e hrl => hrl.step e) es
  refine ⟨hrun.safe, fun hdone i => ?_⟩
  obtain ⟨hreg, hrenewed⟩ := hrun.armed hdone i
  have heof := (hrun.live hdone).noEof i
  refine ⟨by rw [hreg, desiredInterest, heof]; simp, fun hne => ?_⟩
  rw [hreg] at hne ⊢
  exact hrenewed hne

/-- A preload that fills the queue, a short write, and bytes from the other side. -/
theorem relay_safe_full : ∃ rl, start 3 4 [1, 2] 2 true true true true = some rl ∧
    Safe [1, 2] (Lib.run step rl [.ready ⟨4, ⟨true, true⟩, [.took 1], [.data [7]], [], [.intr, .took 1],
      []⟩]).io := by
  obtain ⟨rl, h⟩ : ∃ rl, start 3 4 [1, 2] 2 true true true true = some rl := ⟨_, rfl⟩
  exact ⟨rl, h, (relay_safe h _).1⟩

end PlainRelay

end Cloak
