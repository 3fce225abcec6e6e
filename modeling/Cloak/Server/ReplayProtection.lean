import Cloak.Server.ServerAuth

set_option autoImplicit false

/-! # Replay protection over runs of handshakes

The cache is keyed on the whole `random` field, but what a ciphertext is opened under is the X25519
secret of that field and its first twelve bytes. Two different fields that agree on both are the
same handshake to `cloak_server_auth_decrypt` and two handshakes to the cache, and RFC 7748 gives
every field such a twin: the top bit of its last byte does not count.

`ciphertexts_accepted_once` says that this and a clock that reads 0 are all there is. While the slot
of an accepted field is spared, a second acceptance of its ciphertext needs one of the two, and
less than twice the timestamp tolerance: the age limit of the cache is far beyond that, so the
record is still there. -/

namespace Cloak

open Lib

section Runs

variable (x : X25519) (evp : Evp) (priv : List UInt8)

/-- The cache after the handshakes `es`. -/
def replayRun (c : ReplayCache) (es : List Presentation) : ReplayCache :=
  run (fun c p => (handshake x evp priv c p).1) c es

/-- The presentation is accepted after the handshakes `es`. -/
def AcceptedAfter (c : ReplayCache) (es : List Presentation) (p : Presentation) : Prop :=
  (handshake x evp priv (replayRun x evp priv c es) p).2.isSome

/-- No handshake of `mid`, which come after `es`, inserts a different key into the slot of `key`. -/
def SlotSpared (c : ReplayCache) (es : List Presentation) (key : List UInt8)
    (mid : List Presentation) : Prop :=
  Obeys (fun c p => (handshake x evp priv c p).1)
    (fun c m => SparesSlot key replayCacheAgeLimitSeconds c m.random m.now)
    (replayRun x evp priv c es) mid

/-- No ciphertext is accepted a second time while the slot of the first is spared. -/
def CiphertextsAcceptedOnce (c : ReplayCache) (es : List Presentation) : Prop :=
  ∀ pre p mid q post, es = pre ++ p :: (mid ++ q :: post) → p.ciphertext = q.ciphertext →
    AcceptedAfter x evp priv c pre p → SlotSpared x evp priv c (pre ++ [p]) p.random mid →
      ¬ AcceptedAfter x evp priv c (pre ++ [p] ++ mid) q

/-- The key and nonce the ciphertext of a presentation opens under. -/
def Presentation.openedUnder (p : Presentation) : Option (List UInt8 × List UInt8) := do
  let sharedSecret ← x.sharedSecret priv p.random
  let _ ← aeadOpen evp .aes256Gcm sharedSecret p.nonce [] p.ciphertext
  return (sharedSecret, p.nonce)

/-- The AEAD is authentic on this run: no ciphertext opens under two keys or two nonces. -/
def Authentic (es : List Presentation) : Prop :=
  ∀ p ∈ es, ∀ q ∈ es, p.ciphertext = q.ciphertext → (p.openedUnder x evp priv).isSome →
    (q.openedUnder x evp priv).isSome → p.openedUnder x evp priv = q.openedUnder x evp priv

/-- What the cache needs of a presentation `q` that comes after `p` with its ciphertext, while the
    timestamp may still be fresh. With the same `random`, the record of `p` must not read as an
    empty slot. With another one, the decryption must see the difference as well. -/
def Discernible (p q : Presentation) : Prop :=
  p.ciphertext = q.ciphertext → q.now < p.now + 2 * timestampToleranceSeconds →
    if q.random = p.random then p.now ≠ 0
    else x.sharedSecret priv q.random = x.sharedSecret priv p.random → q.nonce ≠ p.nonce

instance (p q : Presentation) : Decidable (Discernible x priv p q) :=
  inferInstanceAs (Decidable (_ → _ → ite _ _ _))

instance (es : List Presentation) : Decidable (Authentic x evp priv es) :=
  inferInstanceAs (Decidable (∀ p ∈ es, ∀ q ∈ es, _ → _ → _ → _))

variable {x evp priv}

@[simp] theorem replayRun_concat (c : ReplayCache) (es : List Presentation) (p : Presentation) :
    replayRun x evp priv c (es ++ [p])
      = ((replayRun x evp priv c es).checkReplay p.random p.now).1 := by
  rw [replayRun, run_concat, handshake_cache, replayRun]

theorem replayRun_append (c : ReplayCache) (es es' : List Presentation) :
    replayRun x evp priv c (es ++ es') = replayRun x evp priv (replayRun x evp priv c es) es' :=
  run_append _ _ _ _

@[simp] theorem replayRun_capacity (c : ReplayCache) (es : List Presentation) :
    (replayRun x evp priv c es).capacity = c.capacity := by
  refine run_invariant (P := fun c' : ReplayCache => c'.capacity = c.capacity) rfl ?_ es
  intro c' p h
  rw [handshake_cache]
  exact (ReplayCache.checkAndInsert_capacity _ _ _ _).trans h

/-- A record stays through handshakes that spare its slot, as long as it is young. -/
theorem Recorded.replayRun {key : List UInt8} {t : Int} (ht : t ≠ 0) {c : ReplayCache}
    {mid : List Presentation} (h : Recorded key t c)
    (htime : ∀ m ∈ mid, t ≤ m.now ∧ m.now < t + replayCacheAgeLimitSeconds)
    (hspare : Obeys (fun c p => (handshake x evp priv c p).1)
      (fun c m => SparesSlot key replayCacheAgeLimitSeconds c m.random m.now) c mid) :
    Recorded key t (replayRun x evp priv c mid) := by
  induction mid generalizing c with
  | nil => exact h
  | cons m mid ih =>
    obtain ⟨hle, hlt⟩ := htime m (by simp)
    have hstep : Recorded key t (handshake x evp priv c m).1 := by
      rw [handshake_cache]
      exact h.checkAndInsert ht hle hlt (by decide) hspare.1
    exact ih hstep (fun m' hm' => htime m' (List.mem_cons_of_mem _ hm')) hspare.2

/-- What an accepted presentation opens, under which key, and when. -/
theorem AcceptedAfter.opened {c : ReplayCache} {es : List Presentation} {p : Presentation}
    (h : AcceptedAfter x evp priv c es p) : ∃ secret pt,
      x.sharedSecret priv p.random = some secret
      ∧ aeadOpen evp .aes256Gcm secret p.nonce [] p.ciphertext = some pt
      ∧ p.openedUnder x evp priv = some (secret, p.nonce)
      ∧ timestampLower p.now < loadBe64 (pt.drop 29)
      ∧ loadBe64 (pt.drop 29) < timestampUpper p.now := by
  obtain ⟨r, hr⟩ := Option.isSome_iff_exists.mp (handshake_some h).2
  obtain ⟨sid, ks, secret, pt, hsid, hks, hsecret, hopen, hlo, hhi, -⟩ := serverAuthDecrypt_some hr
  have hct : p.ciphertext = sid ++ ks := by
    rw [Presentation.ciphertext, hsid, hks]
    rfl
  rw [← hct] at hopen
  refine ⟨secret, pt, hsecret, hopen, ?_, hlo, hhi⟩
  simp only [Presentation.openedUnder, hsecret, Presentation.nonce] at hopen ⊢
  simp only [Option.bind_eq_bind, Option.bind_some, hopen, Option.pure_def]

/-- Two acceptances under one key and nonce read one timestamp, so they are close in time. -/
theorem AcceptedAfter.now_lt {c : ReplayCache} {es es' : List Presentation} {p q : Presentation}
    (hp : AcceptedAfter x evp priv c es p) (hq : AcceptedAfter x evp priv c es' q)
    (hct : p.ciphertext = q.ciphertext)
    (hunder : p.openedUnder x evp priv = q.openedUnder x evp priv) :
    q.now < p.now + 2 * timestampToleranceSeconds := by
  obtain ⟨secret, pt, -, hopen, hp', -, hhi⟩ := hp.opened
  obtain ⟨secret', pt', -, hopen', hq', hlo, -⟩ := hq.opened
  rw [hp', hq', Option.some.injEq, Prod.mk.injEq] at hunder
  obtain ⟨rfl, hnonce⟩ := hunder
  rw [hct, hnonce, hopen', Option.some.injEq] at hopen
  subst hopen
  exact clock_lt_of_fresh hlo hhi

/-- In every run of handshakes with a clock that does not go back and an AEAD that is authentic,
    if later presentations of a ciphertext are discernible from earlier ones, then no ciphertext is
    accepted a second time while the slot of the first acceptance is spared. -/
theorem ciphertexts_accepted_once (x : X25519) (evp : Evp) (priv : List UInt8) (c : ReplayCache)
    (hcap : 0 < c.capacity) (es : List Presentation)
    (hclock : es.Pairwise fun p q => p.now ≤ q.now) (hauth : Authentic x evp priv es)
    (hdisc : es.Pairwise (Discernible x priv)) : CiphertextsAcceptedOnce x evp priv c es := by
  rintro pre p mid q post rfl hct hp hspare hq
  have hpq : Discernible x priv p q := by
    have htail := (List.pairwise_append.mp hdisc).2.1
    exact (List.pairwise_cons.mp htail).1 q (by simp)
  -- both open under one key and nonce, so the second comes while the record is young
  obtain ⟨secret, -, hsecret, -, hunder, -, -⟩ := hp.opened
  obtain ⟨secret', -, hsecret', -, hunder', -, -⟩ := hq.opened
  have hsame : p.openedUnder x evp priv = q.openedUnder x evp priv :=
    hauth p (by simp) q (by simp) hct (by rw [hunder]; rfl) (by rw [hunder']; rfl)
  have hclose : q.now < p.now + 2 * timestampToleranceSeconds := hp.now_lt hq hct hsame
  have hcond := hpq hct hclose
  by_cases hrandom : q.random = p.random
  · rw [if_pos hrandom] at hcond
    have htail := (List.pairwise_append.mp hclock).2.1
    obtain ⟨hafter, hrest⟩ := List.pairwise_cons.mp htail
    have hle : p.now ≤ q.now := hafter q (by simp)
    have hlt : q.now < p.now + replayCacheAgeLimitSeconds := by
      have : 2 * timestampToleranceSeconds < replayCacheAgeLimitSeconds := by decide
      omega
    have hrec : Recorded p.random p.now (replayRun x evp priv c (pre ++ [p])) := by
      rw [replayRun_concat]
      exact ReplayCache.recorded_of_inserted (by simpa using hcap) (handshake_some hp).1
    have htime : ∀ m ∈ mid, p.now ≤ m.now ∧ m.now < p.now + replayCacheAgeLimitSeconds := by
      intro m hm
      have hmq : m.now ≤ q.now := (List.pairwise_append.mp hrest).2.2 m hm q (by simp)
      exact ⟨hafter m (by simp [hm]), by omega⟩
    have hstay : Recorded p.random p.now (replayRun x evp priv c (pre ++ [p] ++ mid)) := by
      rw [replayRun_append]
      exact hrec.replayRun hcond htime hspare
    have hreplay := hstay.replay hcond hle hlt (by decide)
    have hnew := (handshake_some hq).1
    rw [ReplayCache.checkReplay, hrandom, hreplay] at hnew
    cases hnew
  · rw [if_neg hrandom] at hcond
    rw [hunder, hunder', Option.some.injEq, Prod.mk.injEq] at hsame
    exact hcond (by rw [hsecret, hsecret', hsame.1]) hsame.2.symm

end Runs

/-! ## The twin of a handshake -/

/-- The same ciphertext at the same time, with the top bit of `random` flipped. -/
def Presentation.flipped (p : Presentation) : Presentation :=
  { p with
    random := flipTopBit p.random
    random_length := by rw [flipTopBit, List.length_modify, p.random_length] }

/-- The nonce does not reach the byte that was flipped. -/
@[simp] theorem Presentation.flipped_nonce (p : Presentation) : p.flipped.nonce = p.nonce := by
  apply List.ext_getElem?
  intro i
  simp only [nonce, flipped, flipTopBit, aeadNonceLen, List.getElem?_take, List.getElem?_modify]
  by_cases hi : i < 12
  · have hne : 31 ≠ i := by omega
    simp [hi, hne]
  · simp [hi]

/-- Whatever the server has accepted it accepts again from the twin, unless the cache holds the
    twin itself. -/
theorem flipped_handshake {x : X25519} (hx : x.IgnoresTopBit) {evp : Evp} {priv : List UInt8}
    {c c' : ReplayCache} {p : Presentation} (hp : (handshake x evp priv c p).2.isSome)
    (hnew : (c'.checkReplay p.flipped.random p.now).2 = false) :
    (handshake x evp priv c' p.flipped).2 = (handshake x evp priv c p).2 := by
  have hdecrypt : serverAuthDecrypt x evp p.flipped.random p.sessionIdField p.keyShareField priv
      p.now = serverAuthDecrypt x evp p.random p.sessionIdField p.keyShareField priv p.now := by
    have hnonce : p.flipped.random.take aeadNonceLen = p.random.take aeadNonceLen :=
      p.flipped_nonce
    have hsecret : x.sharedSecret priv p.flipped.random = x.sharedSecret priv p.random :=
      hx priv p.random
    simp only [serverAuthDecrypt, hnonce, hsecret]
  rw [handshake_new (handshake_some hp).1, ← hdecrypt]
  exact handshake_new hnew

instance (x : X25519) (evp : Evp) (priv : List UInt8) (c : ReplayCache) (es : List Presentation)
    (p : Presentation) : Decidable (AcceptedAfter x evp priv c es p) :=
  inferInstanceAs (Decidable (_ = _))

/-- A well-formed ciphertext under the stand-in primitives, with the timestamp 1700000000. -/
def capturedPlaintext : List UInt8 :=
  List.replicate 16 0xaa ++ [115, 115] ++ List.replicate 10 0 ++ [1]
    ++ beBytes 8 1700000000 ++ beBytes 4 7 ++ List.replicate 7 0

/-- A client's handshake, captured. -/
def captured : Presentation :=
  { random := List.range 32 |>.map UInt8.ofNat
    sessionIdField := some (capturedPlaintext.take 32)
    keyShareField := some (capturedPlaintext.drop 32 ++ List.replicate 16 0)
    now := 1700000000
    random_length := by decide
    keyShare_length := by decide }

/-- The captured handshake is sent again a second later, with the top bit of `random` flipped, and
    is accepted again. -/
theorem flipped_random_accepted_again : ∃ c, replayCacheInit 4 true (List.replicate 16 0) = some c
    ∧ X25519.plain.IgnoresTopBit
    ∧ [captured, { captured.flipped with now := 1700000001 }].Pairwise (fun p q => p.now ≤ q.now)
    ∧ Authentic X25519.plain Evp.plain (List.replicate 32 7)
        [captured, { captured.flipped with now := 1700000001 }]
    ∧ ¬ CiphertextsAcceptedOnce X25519.plain Evp.plain (List.replicate 32 7) c
        [captured, { captured.flipped with now := 1700000001 }] := by
  refine ⟨_, rfl, X25519.plain_ignoresTopBit, by decide, by decide, ?_⟩
  intro h
  exact h [] _ [] _ [] rfl rfl (by decide +kernel) trivial (by decide +kernel)

/-- Sent again as it was captured, it is refused. -/
theorem captured_accepted_once : ∃ c, replayCacheInit 4 true (List.replicate 16 0) = some c
    ∧ AcceptedAfter X25519.plain Evp.plain (List.replicate 32 7) c [] captured
    ∧ CiphertextsAcceptedOnce X25519.plain Evp.plain (List.replicate 32 7) c
        [captured, { captured with now := 1700000001 }] := by
  obtain ⟨c, hinit⟩ : ∃ c, replayCacheInit 4 true (List.replicate 16 0) = some c := ⟨_, rfl⟩
  have hcap := replayCacheInit_capacity hinit
  obtain rfl := Option.some.inj hinit
  exact ⟨_, rfl, by decide +kernel, ciphertexts_accepted_once _ _ _ _ hcap _ (by decide)
    (by decide) (by decide)⟩

end Cloak
