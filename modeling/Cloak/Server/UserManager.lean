import Mathlib
import Cloak.Lib.CheckedInt
import Cloak.Lib.Transactions

set_option autoImplicit false

/-! # The user manager: authentication and metering (`usermanager.c`)

`cloak_usermanager_authenticate` and `cloak_usermanager_upload_status`, over a connection `E` to the
table of users, which is SQLite in the code. A statement here is its binding, its step and its reset:
each of them can fail, and all the code does then is to give the batch up. A computation is `none` where
the code would overflow a signed integer, which it never does (`umSubNonnegSat_eq`).

The clock is read through `now_fn`, which may answer differently each time: `now i` is what the `i`-th
reading of a call returns. -/

namespace Cloak

open Lib

/-- `CLOAK_USER_ERR_*`. -/
inductive UserErr where
  | notFound
  | noUpCredit
  | noDownCredit
  | expired
  | void
  | db
  | arg
  | wedged
deriving DecidableEq, Repr

/-- The columns of a row of `users` beside its key. -/
structure UserRow where
  sessionsCap : I64
  upRate : I64
  downRate : I64
  upCredit : I64
  downCredit : I64
  expiryTime : I64
deriving DecidableEq

/-- `cloak_user_info_t`. `sessions_cap` is an `int32_t`. -/
structure CloakUserInfo where
  uid : List UInt8
  sessionsCap : Int
  upRate : I64
  downRate : I64
  upCredit : I64
  downCredit : I64
  expiryTime : I64

/-- `cloak_user_status_t`, as far as this module acts on it. -/
structure CloakUserStatus where
  uid : List UInt8
  upUsage : I64
  downUsage : I64
deriving DecidableEq

/-- `CLOAK_USER_TERMINATE_NO_SUCH_USER`. -/
def userTerminateNoSuchUser : String := "User no longer exists"

/-- `CLOAK_USER_TERMINATE_NO_UP_CREDIT`. -/
def userTerminateNoUpCredit : String := "No upload credit left"

/-- `CLOAK_USER_TERMINATE_NO_DOWN_CREDIT`. -/
def userTerminateNoDownCredit : String := "No download credit left"

/-- `CLOAK_USER_TERMINATE_EXPIRED`. -/
def userTerminateExpired : String := "User has expired"

/-- `cloak_user_terminate_t`. -/
structure CloakUserTerminate where
  uid : List UInt8
  reason : String
deriving DecidableEq, Repr

/-- A pointer that comes with a number of elements: it points to that many, or it is null. -/
inductive CArray (α : Type) where
  | null (n : Nat)
  | elems (xs : List α)
deriving DecidableEq

namespace CArray

variable {α : Type}

def len : CArray α → Nat
  | null n => n
  | elems xs => xs.length

/-- Null, although elements are claimed. -/
def missing : CArray α → Bool
  | null n => 0 < n
  | elems _ => false

def toList : CArray α → List α
  | null _ => []
  | elems xs => xs

/-- The same pointer, with other contents. -/
def store (xs : List α) : CArray α → CArray α
  | null n => null n
  | elems _ => elems xs

theorem length_toList {a : CArray α} (h : a.missing = false) : a.toList.length = a.len := by
  cases a with
  | null n => simpa [missing, len, toList, eq_comm] using h
  | elems xs => rfl

theorem toList_store {a : CArray α} {xs : List α} (h : a.missing = false) (hlen : xs.length = a.len) :
    (a.store xs).toList = xs := by
  cases a with
  | null n =>
    obtain rfl : n = 0 := by simpa [missing] using h
    exact (List.length_eq_zero_iff.mp hlen).symm
  | elems _ => rfl

end CArray

/-- `struct cloak_usermanager`; without a database it is a void one. -/
structure UserManager (D : Type) where
  db : Option D

/-- `um_sub_nonneg_sat`. -/
def umSubNonnegSat (credit usage : I64) : Option I64 := do
  let limit ← I64.add I64.min usage
  if credit.val < limit.val then pure I64.min else I64.sub credit usage

/-- `um_clamp_usage`. -/
def umClampUsage (usage : I64) : I64 :=
  if usage.val < 0 then ⟨0, fits64_zero⟩ else usage

/-- `um_check_gates`. -/
def umCheckGates (u : CloakUserInfo) (now : Int) : Option UserErr :=
  if u.upCredit.val ≤ 0 then some .noUpCredit
  else if u.downCredit.val ≤ 0 then some .noDownCredit
  else if u.expiryTime.val < now then some .expired
  else none

/-- The `reason` that a user who exists is terminated for. Each test overrides those before it. -/
def terminateReason (newUp newDown : I64) (now : Int) (expiryTime : I64) : Option String :=
  let reason := none
  let reason := if newUp.val ≤ 0 then some userTerminateNoUpCredit else reason
  let reason := if newDown.val ≤ 0 then some userTerminateNoDownCredit else reason
  if now > expiryTime.val then some userTerminateExpired else reason

/-- `sqlite3_column_int`: the low 32 bits of the value. -/
def columnInt (x : I64) : Int := x.val.bmod (2 ^ 32)

/-- The fields `um_load` fills in. -/
def UserRow.info (row : UserRow) (uid : List UInt8) : CloakUserInfo where
  uid := uid
  sessionsCap := columnInt row.sessionsCap
  upRate := row.upRate
  downRate := row.downRate
  upCredit := row.upCredit
  downCredit := row.downCredit
  expiryTime := row.expiryTime

/-- What `UM_ST_METER` sets. -/
def UserRow.meter (newUp newDown : I64) (row : UserRow) : UserRow :=
  { row with upCredit := newUp, downCredit := newDown }

/-- The loop variables of an upload: the connection, the readings taken of the clock, `total`, and the
contents of `out_terminate`. -/
structure UploadLoop (D : Type) where
  db : D
  readings : Nat
  total : Nat
  out : List CloakUserTerminate

/-- The label `emit`. -/
def UploadLoop.emit {D : Type} (b : UploadLoop D) (outCap : Nat) (uid : List UInt8) (reason : String) :
    UploadLoop D :=
  { b with
    out := if b.total < outCap then b.out.set b.total ⟨uid, reason⟩ else b.out
    total := b.total + 1 }

/-- What a call of `cloak_usermanager_upload_status` leaves behind. `outN` is `none` for a null
pointer, else what it points to. -/
structure UploadResult (D : Type) where
  rc : Except UserErr Unit
  m : Option (UserManager D)
  outTerminate : CArray CloakUserTerminate
  outN : Option Nat

namespace UserManager

variable {D : Type} (E : TxConn D (List UInt8) UserRow)

/-- `um_load`. -/
def umLoad (db : D) (uid : List UInt8) : Except UserErr CloakUserInfo × D :=
  match E.lookup db uid with
  | (.row row, db) => (.ok (row.info uid), db)
  | (.absent, db) => (.error .notFound, db)
  | (.failed, db) => (.error .db, db)

/-- `cloak_usermanager_authenticate`, which gives the user's rates. -/
def authenticate (m : Option (UserManager D)) (uid : Option (List UInt8)) (now : Int) :
    Except UserErr (I64 × I64) × Option (UserManager D) :=
  match m, uid with
  | none, _ => (.error .arg, none)
  | some ⟨none⟩, _ => (.error .void, some ⟨none⟩)
  | some ⟨some db⟩, none => (.error .arg, some ⟨some db⟩)
  | some ⟨some db⟩, some uid =>
    match umLoad E db uid with
    | (.error e, db) => (.error e, some ⟨some db⟩)
    | (.ok u, db) =>
      match umCheckGates u now with
      | some e => (.error e, some ⟨some db⟩)
      | none => (.ok (u.upRate, u.downRate), some ⟨some db⟩)

/-- One turn of the loop over the updates; an error is the way to `fail`. -/
def uploadTurn (now : Nat → Int) (outCap : Nat) (b : UploadLoop D) (s : CloakUserStatus) :
    Option (Except UserErr Unit × UploadLoop D) :=
  match umLoad E b.db s.uid with
  | (.error .notFound, db) =>
    some (.ok (), { b with db := db }.emit outCap s.uid userTerminateNoSuchUser)
  | (.error e, db) => some (.error e, { b with db := db })
  | (.ok u, db) => do
    let newUp ← umSubNonnegSat u.upCredit (umClampUsage s.upUsage)
    let newDown ← umSubNonnegSat u.downCredit (umClampUsage s.downUsage)
    match E.update db s.uid (UserRow.meter newUp newDown) with
    | (false, db) => some (.error .db, { b with db := db })
    | (true, db) =>
      match terminateReason newUp newDown (now b.readings) u.expiryTime with
      | none => some (.ok (), { b with db := db, readings := b.readings + 1 })
      | some reason =>
        some (.ok (), { b with db := db, readings := b.readings + 1 }.emit outCap s.uid reason)

/-- The loop over the updates. -/
def uploadLoop (now : Nat → Int) (outCap : Nat) :
    UploadLoop D → List CloakUserStatus → Option (Except UserErr Unit × UploadLoop D)
  | b, [] => some (.ok (), b)
  | b, s :: updates => do
    match ← uploadTurn E now outCap b s with
    | (.error e, b) => some (.error e, b)
    | (.ok (), b) => uploadLoop now outCap b updates

/-- The label `fail`. -/
def uploadFail (rc : UserErr) (db : D) (outTerminate : CArray CloakUserTerminate) : UploadResult D where
  rc := .error rc
  m := some ⟨some (E.rollback db).2⟩
  outTerminate := outTerminate
  outN := some 0

/-- `cloak_usermanager_upload_status` on a connection with no transaction open. -/
def uploadBatch (now : Nat → Int) (db : D) (updates : CArray CloakUserStatus)
    (outTerminate : CArray CloakUserTerminate) : Option (UploadResult D) :=
  if updates.len = 0 then some ⟨.ok (), some ⟨some db⟩, outTerminate, some 0⟩
  else
    match E.beginTx db with
    | (false, db) => some ⟨.error .db, some ⟨some db⟩, outTerminate, some 0⟩
    | (true, db) => do
      match ← uploadLoop E now outTerminate.len ⟨db, 0, 0, outTerminate.toList⟩ updates.toList with
      | (.error e, b) => some (uploadFail E e b.db (outTerminate.store b.out))
      | (.ok (), b) =>
        match E.commit b.db with
        | (false, db) => some (uploadFail E .db db (outTerminate.store b.out))
        | (true, db) =>
          some ⟨.ok (), some ⟨some db⟩, outTerminate.store b.out, some b.total⟩

/-- `cloak_usermanager_upload_status`. -/
def uploadStatus (now : Nat → Int) (m : Option (UserManager D)) (updates : CArray CloakUserStatus)
    (outTerminate : CArray CloakUserTerminate) (outN : Option Nat) : Option (UploadResult D) :=
  match m with
  | none => some ⟨.error .arg, none, outTerminate, outN⟩
  | some ⟨none⟩ => some ⟨.error .void, some ⟨none⟩, outTerminate, outN⟩
  | some ⟨some db⟩ =>
    if outN.isNone ∨ updates.missing ∨ outTerminate.missing then
      some ⟨.error .arg, some ⟨some db⟩, outTerminate, outN⟩
    else if E.autocommit db then uploadBatch E now db updates outTerminate
    else
      -- an earlier batch could not be rolled back, so that is tried again
      let db := (E.rollback db).2
      if E.autocommit db then uploadBatch E now db updates outTerminate
      else some ⟨.error .wedged, some ⟨some db⟩, outTerminate, some 0⟩

end UserManager

/-! ## The arithmetic of a drain -/

theorem umClampUsage_val (usage : I64) : (umClampUsage usage).val = max 0 usage.val := by
  rw [umClampUsage]
  split
  next h => simp [Int.max_eq_left (Int.le_of_lt h)]
  next h => rw [Int.max_eq_right (Int.not_lt.mp h)]

theorem umClampUsage_nonneg (usage : I64) : 0 ≤ (umClampUsage usage).val := by
  rw [umClampUsage_val]
  exact Int.le_max_left ..

/-- No overflow, and the exact difference down to `INT64_MIN`. -/
theorem umSubNonnegSat_eq (credit : I64) {usage : I64} (h : 0 ≤ usage.val) :
    ∃ new, umSubNonnegSat credit usage = some new ∧
      new.val = max i64Min (credit.val - usage.val) := by
  have hcredit := fits64_iff.mp credit.property
  have husage := fits64_iff.mp usage.property
  have hmin : i64Min = -9223372036854775808 := by decide
  have hlimit : Fits64 (I64.min.val + usage.val) := by
    rw [fits64_iff]
    simp only [I64.min, hmin]
    omega
  rw [umSubNonnegSat, I64.add_eq hlimit, Option.bind_eq_bind, Option.bind_some]
  split
  next hlow =>
    simp only [I64.min] at hlow
    exact ⟨I64.min, rfl, by simp only [I64.min]; omega⟩
  next hlow =>
    simp only [I64.min] at hlow
    have hdiff : Fits64 (credit.val - usage.val) := by
      rw [fits64_iff]
      omega
    exact ⟨_, I64.sub_eq hdiff, by simp only; omega⟩

/-- A user is terminated exactly where a gate would refuse them afterwards. -/
theorem terminateReason_eq_none_iff {newUp newDown expiryTime : I64} {now : Int} :
    terminateReason newUp newDown now expiryTime = none ↔
      0 < newUp.val ∧ 0 < newDown.val ∧ now ≤ expiryTime.val := by
  simp only [terminateReason]
  split_ifs <;> simp <;> omega

theorem umCheckGates_eq_none_iff {u : CloakUserInfo} {now : Int} :
    umCheckGates u now = none ↔
      0 < u.upCredit.val ∧ 0 < u.downCredit.val ∧ now ≤ u.expiryTime.val := by
  rw [umCheckGates]
  split_ifs <;> simp <;> omega

end Cloak
