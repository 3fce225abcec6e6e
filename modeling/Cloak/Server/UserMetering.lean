import Mathlib
import Cloak.Server.UserManager

set_option autoImplicit false

/-! # Metering is atomic and agrees with authentication (`usermanager.c`)

What an upload is for, said without its loop: each user is charged what their updates add up to
(`Metered`), and a user who is then refused is reported. The loop keeps `Uploading`, the same statement
about the updates it has come past and the working copy of its transaction. One turn keeps it
(`Uploading.turn`), so the whole loop does, and the commit makes the working copy the committed rows.

That the report agrees with authentication although a uid may come up repeatedly rests on one fact:
a charge never raises a credit, so who is refused stays refused (`Barred.of_metered`). -/

namespace Cloak

open Lib

/-- What the updates of one user add up to. A negative usage counts as none. -/
def drained (usage : CloakUserStatus → I64) (updates : List CloakUserStatus) (uid : List UInt8) : Int :=
  ((updates.filter (·.uid = uid)).map fun s => max 0 (usage s).val).sum

/-- The row of `uid` before and after the updates: the credits are charged, the rest is as it was. -/
structure Metered (updates : List CloakUserStatus) (uid : List UInt8) (row row' : UserRow) : Prop where
  upCredit : row'.upCredit.val = max i64Min (row.upCredit.val - drained (·.upUsage) updates uid)
  downCredit : row'.downCredit.val = max i64Min (row.downCredit.val - drained (·.downUsage) updates uid)
  sessionsCap : row'.sessionsCap = row.sessionsCap
  upRate : row'.upRate = row.upRate
  downRate : row'.downRate = row.downRate
  expiryTime : row'.expiryTime = row.expiryTime

/-- The user does not exist or does not pass the gates. -/
def Barred (now : Int) (found : Option UserRow) : Prop :=
  ∀ row, found = some row →
    ¬(0 < row.upCredit.val ∧ 0 < row.downCredit.val ∧ now ≤ row.expiryTime.val)

section Rel

variable {α β γ : Type} {R : α → β → Prop} {S : α → γ → Prop} {x : Option α} {y : Option β} {b : β} {c : γ}

theorem rel_imp {S : α → β → Prop} (h : ∀ a b, R a b → S a b) :
    Option.Rel R x y → Option.Rel S x y
  | .some hR => .some (h _ _ hR)
  | .none => .none

theorem rel_some (h : ∀ a, R a b → S a c) : Option.Rel R x (some b) → Option.Rel S x (some c)
  | .some hR => .some (h _ hR)

theorem rel_none : Option.Rel R x none → Option.Rel S x none
  | .none => .none

end Rel

/-! ## Charges -/

section Charges

variable {usage : CloakUserStatus → I64} {updates : List CloakUserStatus} {s : CloakUserStatus}
  {uid : List UInt8} {row row' : UserRow}

theorem drained_concat_self :
    drained usage (updates ++ [s]) s.uid = drained usage updates s.uid + max 0 (usage s).val := by
  simp [drained, List.filter_append]

theorem drained_concat_ne (h : s.uid ≠ uid) :
    drained usage (updates ++ [s]) uid = drained usage updates uid := by
  simp [drained, List.filter_append, h]

theorem Metered.refl (row : UserRow) : Metered [] uid row row := by
  have hup := row.upCredit.property.1
  have hdown := row.downCredit.property.1
  exact ⟨by simp [drained, Int.max_eq_right hup], by simp [drained, Int.max_eq_right hdown],
    rfl, rfl, rfl, rfl⟩

theorem Metered.concat_ne (h : Metered updates uid row row') (hs : s.uid ≠ uid) :
    Metered (updates ++ [s]) uid row row' where
  upCredit := by rw [drained_concat_ne hs, h.upCredit]
  downCredit := by rw [drained_concat_ne hs, h.downCredit]
  sessionsCap := h.sessionsCap
  upRate := h.upRate
  downRate := h.downRate
  expiryTime := h.expiryTime

/-- Saturating twice is saturating once, because a usage is never negative. -/
theorem saturate_concat {a b c : Int} (h : 0 ≤ c) :
    max i64Min (max i64Min (a - b) - c) = max i64Min (a - (b + c)) := by
  omega

theorem Metered.concat_self (h : Metered updates s.uid row row') {newUp newDown : I64}
    (hup : newUp.val = max i64Min (row'.upCredit.val - max 0 s.upUsage.val))
    (hdown : newDown.val = max i64Min (row'.downCredit.val - max 0 s.downUsage.val)) :
    Metered (updates ++ [s]) s.uid row (row'.meter newUp newDown) where
  upCredit := by
    rw [drained_concat_self, UserRow.meter, hup, h.upCredit, saturate_concat (Int.le_max_left ..)]
  downCredit := by
    rw [drained_concat_self, UserRow.meter, hdown, h.downCredit, saturate_concat (Int.le_max_left ..)]
  sessionsCap := h.sessionsCap
  upRate := h.upRate
  downRate := h.downRate
  expiryTime := h.expiryTime

/-- A further charge does not let anybody pass who was refused. -/
theorem Barred.of_charge {now : Int} {newUp newDown : I64} (h : Barred now (some row))
    (hup : newUp.val = max i64Min (row.upCredit.val - max 0 s.upUsage.val))
    (hdown : newDown.val = max i64Min (row.downCredit.val - max 0 s.downUsage.val)) :
    Barred now (some (row.meter newUp newDown)) := by
  rintro _ ⟨⟩ ⟨hup', hdown', hexp⟩
  have hmin : i64Min < 0 := by decide
  refine h row rfl ⟨?_, ?_, hexp⟩
  · simp only [UserRow.meter] at hup'
    omega
  · simp only [UserRow.meter] at hdown'
    omega

end Charges

/-! ## The terminate list -/

/-- Writing the next entry of a list into a buffer that holds the ones before, as far as they fit. -/
theorem set_next {α : Type} {out out₀ es : List α} {cap : Nat} (hcap : out₀.length = cap)
    (hout : out = es.take cap ++ out₀.drop es.length) (e : α) :
    (if es.length < cap then out.set es.length e else out) =
      (es ++ [e]).take cap ++ out₀.drop (es ++ [e]).length := by
  rw [List.length_append, List.length_singleton]
  split
  next h =>
    have hdrop := List.drop_eq_getElem_cons (l := out₀) (hcap ▸ h)
    rw [hout, List.take_of_length_le (Nat.le_of_lt h),
      List.take_of_length_le (by simpa using Nat.succ_le_of_lt h), hdrop, List.append_assoc,
      List.set_append_right _ _ (Nat.le_refl _), Nat.sub_self]
    rfl
  next h =>
    rw [hout, List.take_append_of_le_length (Nat.not_lt.mp h),
      List.drop_eq_nil_of_le (by omega), List.drop_eq_nil_of_le (by omega)]

namespace UserManager

variable {D : Type} {E : TxConn D (List UInt8) UserRow}

/-! ## The loop -/

/-- The loop has come past the updates `past` and reported `es`; `t` is the working copy. -/
structure Uploading (E : TxConn D (List UInt8) UserRow) (now : Nat → Int)
    (base : Table (List UInt8) UserRow) (out₀ : List CloakUserTerminate) (past : List CloakUserStatus)
    (t : Table (List UInt8) UserRow) (es : List CloakUserTerminate) (b : UploadLoop D) : Prop where
  tx : E.InTx base t b.db
  rows : ∀ uid, Option.Rel (Metered past uid) (base uid) (t uid)
  total : b.total = es.length
  out : b.out = es.take out₀.length ++ out₀.drop es.length
  reported : (es.map (·.uid)).Sublist (past.map (·.uid))
  agrees : ∀ time, (∀ i, now i = time) → ∀ uid ∈ past.map (·.uid),
    (uid ∈ es.map (·.uid) ↔ Barred time (t uid))

section Turn

variable {now : Nat → Int} {base t t' : Table (List UInt8) UserRow} {out₀ es : List CloakUserTerminate}
  {past : List CloakUserStatus} {b : UploadLoop D} {s : CloakUserStatus} {db : D}

/-- An update behind which nobody is reported. -/
theorem Uploading.silent (h : Uploading E now base out₀ past t es b) (htx : E.InTx base t' db)
    (hrows : ∀ uid, Option.Rel (Metered (past ++ [s]) uid) (base uid) (t' uid))
    (hother : ∀ uid, uid ≠ s.uid → t' uid = t uid)
    (hkeep : ∀ time, Barred time (t s.uid) → Barred time (t' s.uid))
    (hpass : ¬Barred (now b.readings) (t' s.uid)) (n : Nat) :
    Uploading E now base out₀ (past ++ [s]) t' es { b with db := db, readings := n } where
  tx := htx
  rows := hrows
  total := h.total
  out := h.out
  reported := by
    rw [List.map_append]
    exact h.reported.trans (List.sublist_append_left _ _)
  agrees time htime uid huid := by
    rw [htime] at hpass
    by_cases hs : uid = s.uid
    · subst hs
      refine iff_of_false (fun hmem => hpass (hkeep time ?_)) hpass
      exact (h.agrees time htime s.uid (h.reported.subset hmem)).mp hmem
    · rw [hother uid hs]
      exact h.agrees time htime uid (by simpa [hs] using huid)

/-- An update that reports its user. -/
theorem Uploading.emit (h : Uploading E now base out₀ past t es b) (htx : E.InTx base t' db)
    (hrows : ∀ uid, Option.Rel (Metered (past ++ [s]) uid) (base uid) (t' uid))
    (hother : ∀ uid, uid ≠ s.uid → t' uid = t uid)
    (hbarred : ∀ time, (∀ i, now i = time) → Barred time (t' s.uid)) (n : Nat) (reason : String) :
    Uploading E now base out₀ (past ++ [s]) t' (es ++ [⟨s.uid, reason⟩])
      ({ b with db := db, readings := n }.emit out₀.length s.uid reason) where
  tx := htx
  rows := hrows
  total := by simp [UploadLoop.emit, h.total]
  out := by
    rw [UploadLoop.emit, h.total]
    exact set_next rfl h.out _
  reported := by
    rw [List.map_append, List.map_append]
    exact h.reported.append (List.Sublist.refl _)
  agrees time htime uid huid := by
    by_cases hs : uid = s.uid
    · subst hs
      exact iff_of_true (by simp) (hbarred time htime)
    · rw [hother uid hs, ← h.agrees time htime uid (by simpa [hs] using huid)]
      simp [hs]

/-- The rows of the others are past the update as they are. -/
theorem rows_amend (hrows : ∀ uid, Option.Rel (Metered past uid) (base uid) (t uid))
    (hother : ∀ uid, uid ≠ s.uid → t' uid = t uid)
    (hs : Option.Rel (Metered (past ++ [s]) s.uid) (base s.uid) (t' s.uid)) (uid : List UInt8) :
    Option.Rel (Metered (past ++ [s]) uid) (base uid) (t' uid) := by
  by_cases huid : uid = s.uid
  · exact huid ▸ hs
  · rw [hother uid huid]
    exact rel_imp (fun _ _ hmet => hmet.concat_ne (Ne.symm huid)) (hrows uid)

/-- The turn of a user who exists. -/
theorem Uploading.turn_row (hE : E.Atomic) (h : Uploading E now base out₀ past t es b) {row : UserRow}
    (hlookup : E.lookup b.db s.uid = (.row row, db)) (hrow : t s.uid = some row)
    (htx : E.InTx base t db) :
    ∃ rc b', uploadTurn E now out₀.length b s = some (rc, b') ∧
      (rc = .ok () ∧ (∃ t' es', Uploading E now base out₀ (past ++ [s]) t' es' b') ∨
        rc = .error .db ∧ E.committed b'.db = base) := by
  obtain ⟨newUp, hup, hupVal⟩ :=
    umSubNonnegSat_eq row.upCredit (umClampUsage_nonneg s.upUsage)
  obtain ⟨newDown, hdown, hdownVal⟩ :=
    umSubNonnegSat_eq row.downCredit (umClampUsage_nonneg s.downUsage)
  rw [umClampUsage_val] at hupVal hdownVal
  simp only [uploadTurn, umLoad, hlookup, UserRow.info, hup, hdown, Option.bind_eq_bind,
    Option.bind_some]
  obtain ⟨ran, db', hupdate⟩ :
    ∃ ran db', E.update db s.uid (UserRow.meter newUp newDown) = (ran, db') := ⟨_, _, rfl⟩
  rw [hupdate]
  cases ran with
  | false => exact ⟨_, _, rfl, .inr ⟨rfl, hE.update_failed htx hupdate⟩⟩
  | true =>
    have htx' := hE.update_done htx hupdate
    have hself := t.amend_self s.uid (UserRow.meter newUp newDown)
    rw [hrow, Option.map_some] at hself
    have hother (uid : List UInt8) (huid : uid ≠ s.uid) :=
      t.amend_ne (UserRow.meter newUp newDown) huid
    generalize t.amend s.uid (UserRow.meter newUp newDown) = t' at htx' hself hother
    have hrel := h.rows s.uid
    rw [hrow] at hrel
    have hrows := rows_amend h.rows hother
      (hself ▸ rel_some (fun _ hmet => hmet.concat_self hupVal hdownVal) hrel)
    dsimp only
    cases hreason : terminateReason newUp newDown (now b.readings) row.expiryTime with
    | none =>
      refine ⟨_, _, rfl, .inl ⟨rfl, t', es, h.silent htx' hrows hother ?_ ?_ _⟩⟩
      · intro time hbarred
        rw [hrow] at hbarred
        exact hself ▸ hbarred.of_charge hupVal hdownVal
      · rw [hself]
        exact fun hbarred => hbarred _ rfl (terminateReason_eq_none_iff.mp hreason)
    | some reason =>
      refine ⟨_, _, rfl, .inl ⟨rfl, t', es ++ [⟨s.uid, reason⟩],
        h.emit htx' hrows hother ?_ _ reason⟩⟩
      rw [hself]
      rintro time htime _ ⟨⟩ hpass
      rw [terminateReason_eq_none_iff.mpr (by rw [htime]; exact hpass)] at hreason
      simp at hreason

/-- One turn of the loop: the update is settled in the working copy, or the batch is given up with
nothing committed. -/
theorem Uploading.turn (hE : E.Atomic) (h : Uploading E now base out₀ past t es b)
    (s : CloakUserStatus) :
    ∃ rc b', uploadTurn E now out₀.length b s = some (rc, b') ∧
      (rc = .ok () ∧ (∃ t' es', Uploading E now base out₀ (past ++ [s]) t' es' b') ∨
        rc = .error .db ∧ E.committed b'.db = base) := by
  obtain ⟨found, db, hlookup⟩ : ∃ found db, E.lookup b.db s.uid = (found, db) := ⟨_, _, rfl⟩
  cases found with
  | failed =>
    refine ⟨_, _, by simp only [uploadTurn, umLoad, hlookup]; rfl, .inr ⟨rfl, ?_⟩⟩
    exact (hE.lookup_failed hlookup).trans h.tx.committed
  | absent =>
    have hnone : t s.uid = none := by
      rw [← h.tx.current]
      exact hE.lookup_absent hlookup
    have htx := hE.lookup_in_tx h.tx hlookup (by simp)
    refine ⟨_, _, by simp only [uploadTurn, umLoad, hlookup]; rfl,
      .inl ⟨rfl, t, es ++ [⟨s.uid, userTerminateNoSuchUser⟩], ?_⟩⟩
    refine h.emit htx (rows_amend h.rows (fun _ _ => rfl) ?_) (fun _ _ => rfl) ?_ b.readings _
    · have hrel := h.rows s.uid
      rw [hnone] at hrel ⊢
      exact rel_none hrel
    · intro time _ row hrow
      simp [hnone] at hrow
  | row row =>
    have hrow : t s.uid = some row := by
      rw [← h.tx.current]
      exact hE.lookup_row hlookup
    exact h.turn_row hE hlookup hrow (hE.lookup_in_tx h.tx hlookup (by simp))

/-- The whole loop. -/
theorem Uploading.loop (hE : E.Atomic) (h : Uploading E now base out₀ past t es b)
    (updates : List CloakUserStatus) :
    ∃ rc b', uploadLoop E now out₀.length b updates = some (rc, b') ∧
      (rc = .ok () ∧ (∃ t' es', Uploading E now base out₀ (past ++ updates) t' es' b') ∨
        rc = .error .db ∧ E.committed b'.db = base) := by
  induction updates generalizing past t es b with
  | nil => exact ⟨_, _, rfl, .inl ⟨rfl, t, es, by rwa [List.append_nil]⟩⟩
  | cons s updates ih =>
    obtain ⟨_, b', hturn, ⟨rfl, t', es', h'⟩ | ⟨rfl, hfail⟩⟩ := h.turn hE s
    · obtain ⟨rc, b'', hloop, hres⟩ := ih h'
      rw [List.append_assoc, List.singleton_append] at hres
      exact ⟨rc, b'', by simp [uploadLoop, hturn, hloop], hres⟩
    · exact ⟨_, b', by simp [uploadLoop, hturn], .inr ⟨rfl, hfail⟩⟩

end Turn

/-! ## The call -/

/-- The committed rows of a manager. -/
def rows (E : TxConn D (List UInt8) UserRow) : Option (UserManager D) → Table (List UInt8) UserRow
  | some ⟨some db⟩ => E.committed db
  | _ => fun _ => none

/-- The call failed and nobody is charged. A call that the arguments or a void manager already forbid
does not write through its pointers. -/
structure Failed (E : TxConn D (List UInt8) UserRow) (m : Option (UserManager D))
    (outTerminate : CArray CloakUserTerminate) (outN : Option Nat) (r : UploadResult D) : Prop where
  rc : r.rc ≠ .ok ()
  rows : rows E r.m = rows E m
  outN_zero : r.rc ≠ .error .arg → r.rc ≠ .error .void → r.outN = some 0
  untouched : r.rc = .error .arg ∨ r.rc = .error .void →
    r.outN = outN ∧ r.outTerminate = outTerminate

/-- The call succeeded and reported `es`. -/
structure Settled (E : TxConn D (List UInt8) UserRow) (m : Option (UserManager D))
    (updates : List CloakUserStatus) (outTerminate : CArray CloakUserTerminate) (r : UploadResult D)
    (es : List CloakUserTerminate) : Prop where
  rc : r.rc = .ok ()
  rows : ∀ uid, Option.Rel (Metered updates uid) (rows E m uid) (UserManager.rows E r.m uid)
  reported : (es.map (·.uid)).Sublist (updates.map (·.uid))
  outN : r.outN = some es.length
  buffer : r.outTerminate.toList = es.take outTerminate.len ++ outTerminate.toList.drop es.length

/-- Where the database answers, authentication refuses the user exactly if they were reported. -/
def Agrees (E : TxConn D (List UInt8) UserRow) (m : Option (UserManager D)) (time : Int)
    (uid : List UInt8) (reported : Prop) : Prop :=
  (authenticate E m (some uid) time).1 ≠ .error .db →
    (reported ↔ ∃ e, (authenticate E m (some uid) time).1 = .error e)

/-- Authentication refuses exactly the barred users, as far as the database answers. -/
theorem authenticate_refuses_iff (hE : E.Atomic) {base : Table (List UInt8) UserRow} {db : D}
    (hidle : E.Idle base db) (uid : List UInt8) (time : Int)
    (hanswer : (authenticate E (some ⟨some db⟩) (some uid) time).1 ≠ .error .db) :
    Barred time (base uid) ↔ ∃ e, (authenticate E (some ⟨some db⟩) (some uid) time).1 = .error e := by
  obtain ⟨found, db', hlookup⟩ : ∃ found db', E.lookup db uid = (found, db') := ⟨_, _, rfl⟩
  rw [← hE.current_idle hidle]
  cases found with
  | failed => simp [authenticate, umLoad, hlookup] at hanswer
  | absent =>
    rw [hE.lookup_absent hlookup]
    simp [authenticate, umLoad, hlookup, Barred]
  | row row =>
    rw [hE.lookup_row hlookup]
    simp only [authenticate, umLoad, hlookup]
    cases hgates : umCheckGates (row.info uid) time with
    | none =>
      have hpass := umCheckGates_eq_none_iff.mp hgates
      simpa [Barred, UserRow.info] using hpass
    | some e =>
      refine iff_of_true ?_ ⟨e, rfl⟩
      rintro _ ⟨⟩ hpass
      rw [umCheckGates_eq_none_iff.mpr hpass] at hgates
      simp at hgates

/-- What an upload may end with. -/
def UploadOutcome (E : TxConn D (List UInt8) UserRow) (now : Nat → Int) (m : Option (UserManager D))
    (updates : CArray CloakUserStatus) (outTerminate : CArray CloakUserTerminate) (outN : Option Nat)
    (r : UploadResult D) : Prop :=
  Failed E m outTerminate outN r ∨
    ∃ es, Settled E m updates.toList outTerminate r es ∧
      ∀ time, (∀ i, now i = time) → es.length ≤ outTerminate.len →
        ∀ uid ∈ updates.toList.map (·.uid),
          Agrees E r.m time uid (uid ∈ (r.outTerminate.toList.take es.length).map (·.uid))

section Call

variable {now : Nat → Int} {base t : Table (List UInt8) UserRow} {m : Option (UserManager D)} {db : D}
  {updates : CArray CloakUserStatus} {outTerminate : CArray CloakUserTerminate} {outN : Option Nat}

/-- Where an upload may end after its `BEGIN`: nothing is committed, or the working copy is. -/
theorem outcome_failed {r : UploadResult D} {e : UserErr} (hrows : rows E r.m = rows E m)
    (hrc : r.rc = .error e) (he : e ≠ .arg ∧ e ≠ .void) (hout : r.outN = some 0) :
    UploadOutcome E now m updates outTerminate outN r :=
  .inl
    { rc := by simp [hrc]
      rows := hrows
      outN_zero := fun _ _ => hout
      untouched := by simp [hrc, he] }

theorem outcome_settled (hE : E.Atomic) {es : List CloakUserTerminate} {b : UploadLoop D}
    (h : Uploading E now (rows E m) outTerminate.toList updates.toList t es b)
    (hmissing : outTerminate.missing = false) (hidle : E.Idle t db) :
    UploadOutcome E now m updates outTerminate outN
      ⟨.ok (), some ⟨some db⟩, outTerminate.store b.out, some b.total⟩ := by
  have hout := h.out
  rw [CArray.length_toList hmissing] at hout
  have hlen : b.out.length = outTerminate.len := by
    rw [hout, List.length_append, List.length_take, List.length_drop, CArray.length_toList hmissing]
    omega
  refine .inr ⟨es, ?_, ?_⟩
  · exact
      { rc := rfl
        rows := fun uid => by
          rw [show UserManager.rows E (some ⟨some db⟩) = t from hidle.committed]
          exact h.rows uid
        reported := h.reported
        outN := congrArg some h.total
        buffer := (CArray.toList_store hmissing hlen).trans hout }
  · intro time htime hcap uid huid hanswer
    rw [← authenticate_refuses_iff hE hidle uid time hanswer, ← h.agrees time htime uid huid,
      CArray.toList_store hmissing hlen, hout, List.take_of_length_le hcap, List.take_left]

/-- The call on a connection that is in no transaction. -/
theorem uploadBatch_outcome (hE : E.Atomic) (hidle : E.Idle (rows E m) db)
    (hupdates : updates.missing = false) (hmissing : outTerminate.missing = false) :
    ∃ r, uploadBatch E now db updates outTerminate = some r ∧
      UploadOutcome E now m updates outTerminate outN r := by
  rw [uploadBatch]
  split
  next hzero =>
    have hnil : updates.toList = [] :=
      List.length_eq_zero_iff.mp ((CArray.length_toList hupdates).trans hzero)
    refine ⟨_, rfl, .inr ⟨[], ?_, ?_⟩⟩
    · exact
        { rc := rfl
          rows := fun uid => by
            rw [show UserManager.rows E (some ⟨some db⟩) = rows E m from hidle.committed, hnil]
            cases rows E m uid with
            | none => exact .none
            | some row => exact .some (.refl row)
          reported := List.nil_sublist _
          outN := rfl
          buffer := by simp }
    · simp [hnil]
  next =>
    obtain ⟨began, db₁, hbegin⟩ : ∃ began db₁, E.beginTx db = (began, db₁) := ⟨_, _, rfl⟩
    rw [hbegin]
    cases began with
    | false =>
      exact ⟨_, rfl, outcome_failed (hE.begin_failed hidle hbegin).committed rfl (by simp) rfl⟩
    | true =>
      have hstart : Uploading E now (rows E m) outTerminate.toList [] (rows E m) []
          ⟨db₁, 0, 0, outTerminate.toList⟩ :=
        { tx := hE.begin_done hidle hbegin
          rows := fun uid => by
            cases rows E m uid with
            | none => exact .none
            | some row => exact .some (.refl row)
          total := rfl
          out := by simp
          reported := List.Sublist.refl _
          agrees := by simp }
      obtain ⟨rc, b, hloop, hres⟩ := hstart.loop hE updates.toList
      rw [CArray.length_toList hmissing] at hloop
      simp only [hloop, Option.bind_eq_bind, Option.bind_some]
      obtain ⟨rfl, t, es, h⟩ | ⟨rfl, hfail⟩ := hres
      · obtain ⟨committed, db₂, hcommit⟩ : ∃ committed db₂, E.commit b.db = (committed, db₂) :=
          ⟨_, _, rfl⟩
        dsimp only
        rw [hcommit]
        cases committed with
        | true => exact ⟨_, rfl, outcome_settled hE h hmissing (hE.commit_done h.tx hcommit)⟩
        | false =>
          refine ⟨_, rfl, outcome_failed ?_ rfl (by simp) rfl⟩
          exact hE.rollback.trans (hE.commit_failed h.tx hcommit)
      · exact ⟨_, rfl, outcome_failed (hE.rollback.trans hfail) rfl (by simp) rfl⟩

end Call

/-- Usage upload is atomic and agrees with authentication: no integer overflows, and either the call
fails with no row changed, or each user is charged exactly what their updates add up to and those of the
batch whom authentication then refuses are those reported. -/
theorem upload_status_atomic (E : TxConn D (List UInt8) UserRow) (hE : E.Atomic) (now : Nat → Int)
    (m : Option (UserManager D)) (updates : CArray CloakUserStatus)
    (outTerminate : CArray CloakUserTerminate) (outN : Option Nat) :
    ∃ r, uploadStatus E now m updates outTerminate outN = some r ∧
      UploadOutcome E now m updates outTerminate outN r := by
  match m with
  | none =>
    exact ⟨_, rfl, .inl ⟨by simp, rfl, by simp, fun _ => ⟨rfl, rfl⟩⟩⟩
  | some ⟨none⟩ =>
    exact ⟨_, rfl, .inl ⟨by simp, rfl, by simp, fun _ => ⟨rfl, rfl⟩⟩⟩
  | some ⟨some db⟩ =>
    rw [uploadStatus]
    split
    next => exact ⟨_, rfl, .inl ⟨by simp, rfl, by simp, fun _ => ⟨rfl, rfl⟩⟩⟩
    next hargs =>
      simp only [not_or, Bool.not_eq_true] at hargs
      split
      next hclosed => exact uploadBatch_outcome hE ⟨hclosed, rfl⟩ hargs.2.1 hargs.2.2
      next =>
        dsimp only
        split
        next hclosed => exact uploadBatch_outcome hE ⟨hclosed, hE.rollback⟩ hargs.2.1 hargs.2.2
        next => exact ⟨_, rfl, outcome_failed hE.rollback rfl (by simp) rfl⟩

/-- Two users, over a connection on which nothing fails. -/
def sampleUsers : Scripted (List UInt8) UserRow where
  saved uid :=
    if uid = [1] then some ⟨⟨2, by decide⟩, ⟨0, fits64_zero⟩, ⟨0, fits64_zero⟩, ⟨100, by decide⟩,
      ⟨100, by decide⟩, ⟨50, by decide⟩⟩
    else if uid = [2] then some ⟨⟨2, by decide⟩, ⟨0, fits64_zero⟩, ⟨0, fits64_zero⟩, ⟨5, by decide⟩,
      ⟨100, by decide⟩, ⟨50, by decide⟩⟩
    else none
  working := none
  script := []

/-- A drain that names a user twice, one who is unknown, and a negative usage. -/
def sampleUpdates : List CloakUserStatus :=
  [⟨[1], ⟨10, by decide⟩, ⟨10, by decide⟩⟩, ⟨[9], ⟨1, by decide⟩, ⟨1, by decide⟩⟩,
    ⟨[2], ⟨3, by decide⟩, ⟨3, by decide⟩⟩, ⟨[2], ⟨4, by decide⟩, ⟨4, by decide⟩⟩,
    ⟨[1], ⟨-7, by decide⟩, ⟨5, by decide⟩⟩]

def sampleBuffer : CArray CloakUserTerminate := .elems (List.replicate 5 ⟨[], ""⟩)

theorem upload_status_atomic_sample :
    (uploadStatus Scripted.conn (fun _ => 50) (some ⟨some sampleUsers⟩) (.elems sampleUpdates)
        sampleBuffer (some 7)).map (fun r => (r.outN, r.outTerminate.toList.take 2)) =
      some (some 2, [⟨[9], userTerminateNoSuchUser⟩, ⟨[2], userTerminateNoUpCredit⟩]) ∧
    ∃ r, uploadStatus Scripted.conn (fun _ => 50) (some ⟨some sampleUsers⟩) (.elems sampleUpdates)
        sampleBuffer (some 7) = some r ∧
      UploadOutcome Scripted.conn (fun _ => 50) (some ⟨some sampleUsers⟩) (.elems sampleUpdates)
        sampleBuffer (some 7) r :=
  ⟨by decide, upload_status_atomic Scripted.conn Scripted.conn_atomic _ _ _ _ _⟩

/-- A void manager refuses an upload without writing `*out_n`. -/
theorem void_upload_leaves_out_n :
    (uploadStatus Scripted.conn (fun _ => 50) (some ⟨none⟩) (.elems sampleUpdates) sampleBuffer
        (some 7)).map (fun r => (r.rc, r.outN)) = some (.error .void, some 7) := rfl

end UserManager

end Cloak
