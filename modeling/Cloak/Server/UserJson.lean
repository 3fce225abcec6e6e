import Cloak.Common.Base64Calls
import Cloak.Common.CjsonFlat
import Cloak.Server.UserManager

set_option autoImplicit false

/-! # The JSON of a user (`user_json.c`)

`cloak_user_json_encode` and `cloak_user_json_decode`. The decoder works on a copy of the caller's record and
hands it over at its end. `UserRecord` is the record with what its C types promise, and a pointer that may be
null is an `Option`. -/

namespace Cloak

open Lib

/-! ## The record -/

/-- The value is one of `int32_t`. -/
def Fits32 (x : Int) : Prop := -2 ^ 31 ≤ x ∧ x ≤ 2 ^ 31 - 1

instance (x : Int) : Decidable (Fits32 x) := inferInstanceAs (Decidable (_ ∧ _))

/-- `CLOAK_UID_LEN`. -/
def cloakUidLen : Nat := 16

/-- `cloak_user_info_t` with the bounds of its types. -/
structure UserRecord extends CloakUserInfo where
  uid_length : uid.length = cloakUidLen
  sessionsCap_fits : Fits32 sessionsCap

/-- The numeric fields, `F_SESSIONS_CAP` to `F_EXPIRY_TIME`. -/
inductive UserField where
  | sessionsCap
  | upRate
  | downRate
  | upCredit
  | downCredit
  | expiryTime
deriving DecidableEq, Repr

/-- The slots of `kNames`. -/
inductive UserSlot where
  | uid
  | field (f : UserField)
deriving DecidableEq, Repr

namespace UserField

/-- In the order of `kNames`. -/
def all : List UserField := [sessionsCap, upRate, downRate, upCredit, downCredit, expiryTime]

/-- `kBits`, the `CLOAK_USER_FIELD_*`. -/
def kBits : UserField → BitVec 32
  | sessionsCap => 1#32 <<< 0
  | upRate => 1#32 <<< 1
  | downRate => 1#32 <<< 2
  | upCredit => 1#32 <<< 3
  | downCredit => 1#32 <<< 4
  | expiryTime => 1#32 <<< 5

/-- The value in the record. -/
def get (f : UserField) (info : CloakUserInfo) : Int :=
  match f with
  | sessionsCap => info.sessionsCap
  | upRate => info.upRate.val
  | downRate => info.downRate.val
  | upCredit => info.upCredit.val
  | downCredit => info.downCredit.val
  | expiryTime => info.expiryTime.val

/-- `(int32_t)v`. -/
def toInt32 (v : Int) : Int := v.bmod (2 ^ 32)

theorem fits32_toInt32 (v : Int) : Fits32 (toInt32 v) := by
  have hlow : -(((2 ^ 32 : Nat) : Int) / 2) ≤ v.bmod (2 ^ 32) := Int.le_bmod (by decide)
  have hhigh : v.bmod (2 ^ 32) < (((2 ^ 32 : Nat) : Int) + 1) / 2 := Int.bmod_lt (by decide)
  rw [Fits32, toInt32]
  omega

/-- The `switch` of the decoder. -/
def set (f : UserField) (v : I64) (user : UserRecord) : UserRecord :=
  match f with
  | sessionsCap => { user with sessionsCap := toInt32 v.val, sessionsCap_fits := fits32_toInt32 v.val }
  | upRate => { user with upRate := v }
  | downRate => { user with downRate := v }
  | upCredit => { user with upCredit := v }
  | downCredit => { user with downCredit := v }
  | expiryTime => { user with expiryTime := v }

end UserField

/-- `CLOAK_USER_FIELD_ALL`. -/
def cloakUserFieldAll : BitVec 32 := UserField.all.foldl (fun bits f => bits ||| f.kBits) 0

namespace UserSlot

/-- In the order of `kNames`. -/
def all : List UserSlot := uid :: UserField.all.map field

/-- `kNames`. -/
def kNames : UserSlot → List UInt8
  | uid => asciiBytes "UID"
  | field .sessionsCap => asciiBytes "SessionsCap"
  | field .upRate => asciiBytes "UpRate"
  | field .downRate => asciiBytes "DownRate"
  | field .upCredit => asciiBytes "UpCredit"
  | field .downCredit => asciiBytes "DownCredit"
  | field .expiryTime => asciiBytes "ExpiryTime"

end UserSlot

/-- `CLOAK_USER_JSON_ERR_*`. -/
inductive UserJsonErr where
  | errArg
  | errSyntax
  | errNotObject
  | errType
  | errNotInteger
  | errRange
  | errUid
  | errDuplicate
  | errMemory
deriving DecidableEq, Repr

def UserJsonErr.code : UserJsonErr → Int
  | errArg => -1
  | errSyntax => -2
  | errNotObject => -3
  | errType => -4
  | errNotInteger => -5
  | errRange => -6
  | errUid => -7
  | errDuplicate => -8
  | errMemory => -9

theorem UserJsonErr.code_ne_zero (e : UserJsonErr) : e.code ≠ 0 := by
  cases e <;> decide

/-- `CLOAK_USER_JSON_MAX`. -/
def cloakUserJsonMax : Nat := 256

/-- `CLOAK_USER_JSON_MAX_SAFE_INT`. -/
def cloakUserJsonMaxSafeInt : Int := 9007199254740991

/-! ## Encoding -/

/-- `add_number_or_null` on the members so far. -/
def addNumberOrNull (root : List (List UInt8 × CjsonItem)) (name : List UInt8) (fields bit : BitVec 32)
    (value : Int) : Option (List (List UInt8 × CjsonItem)) :=
  if fields &&& bit ≠ 0 then
    if 32 ≤ (intText value).length then none else some (root ++ [(name, .raw (intText value))])
  else some (root ++ [(name, .null)])

/-- `cloak_user_json_encode`: the text it writes into a buffer of `out` bytes, with the NUL behind it.
`allocs` is whether cJSON gets its memory. -/
def cloakUserJsonEncode (printNumber : Binary64 → List UInt8) (allocs : Bool) (info : Option UserRecord)
    (fields : BitVec 32) (out : Option Nat) : Except UserJsonErr (List UInt8) :=
  match info, out with
  | some info, some outCap =>
    if fields &&& ~~~cloakUserFieldAll ≠ 0 then .error .errArg
    else
      match cloakBase64Encode (some info.uid) cloakUidLen (some (List.replicate 25 0)) 25 with
      | (0, some uidB64) =>
        if !allocs then .error .errMemory
        else
          match UserField.all.foldlM
              (fun root f => addNumberOrNull root (UserSlot.field f).kNames fields f.kBits
                (f.get info.toCloakUserInfo))
              [(UserSlot.uid.kNames, .string (cString uidB64))] with
          | none => .error .errMemory
          | some root =>
            match cjsonPrintUnformatted printNumber allocs (.object root) with
            | none => .error .errMemory
            | some text => if outCap < text.length + 1 then .error .errArg else .ok text
      | _ => .error .errMemory
  | _, _ => .error .errArg

/-! ## Decoding -/

/-- `2 ^ 53 - 1`, the greatest integer a number is taken for, is a double. -/
theorem maxSafeInt_lt : cloakUserJsonMaxSafeInt.natAbs < 2 ^ 53 := by decide

/-- `(int64_t)d` for a double that is in range. -/
def toInt64 (d : Binary64) (h : d.within cloakUserJsonMaxSafeInt = true) : I64 :=
  have hsome : d.trunc.isSome = true := by
    obtain ⟨v, hv, -⟩ := Binary64.trunc_of_within maxSafeInt_lt h
    rw [hv]
    rfl
  ⟨d.trunc.get hsome, by
    obtain ⟨v, hv, hlow, hhigh⟩ := Binary64.trunc_of_within maxSafeInt_lt h
    have hget : d.trunc.get hsome = v := by simp [hv]
    rw [hget, fits64_iff]
    rw [cloakUserJsonMaxSafeInt] at hlow hhigh
    omega⟩

/-- `number_to_int64`. -/
def numberToInt64 (item : CjsonItem) : Except UserJsonErr I64 :=
  match item with
  | .number d =>
    if h : d.within cloakUserJsonMaxSafeInt = true then
      let v := toInt64 d h
      if (Binary64.ofInt v.val).eq d then .ok v else .error .errNotInteger
    else .error .errRange
  | _ => .error .errType

/-- `memcpy(out, buf, CLOAK_UID_LEN)`. -/
def UserRecord.setUid (user : UserRecord) (buf : List UInt8) : UserRecord :=
  { user with
    uid := (List.range cloakUidLen).map fun i => buf.getD i 0
    uid_length := by simp }

/-- `decode_uid` into the copy of the record. -/
def decodeUid (item : CjsonItem) (user : UserRecord) : Except UserJsonErr UserRecord :=
  match item with
  | .string s =>
    let call := cloakBase64Decode (some (s ++ [0])) (some (List.replicate 18 0)) 18 (some 0)
    if call.ret ≠ 0 then .error .errUid
    else if call.outLen ≠ some cloakUidLen then .error .errUid
    else .ok (user.setUid (call.out.getD []))
  | _ => .error .errType

/-- The members by their slots: `found`. -/
abbrev FoundSlots := UserSlot → Option CjsonItem

/-- The slot of a name. `strcmp` compares it up to its first NUL. -/
def slotOf (name : List UInt8) : Option UserSlot := UserSlot.all.find? fun s => cString name == s.kNames

/-- The pass over the members. -/
def collect : List (List UInt8 × CjsonItem) → FoundSlots → Except UserJsonErr FoundSlots
  | [], found => .ok found
  | (name, item) :: rest, found =>
    match slotOf name with
    | none => collect rest found
    | some slot =>
      if (found slot).isSome then .error .errDuplicate
      else collect rest (Function.update found slot (some item))

/-- A null member is an absent one. -/
def dropNulls (found : FoundSlots) : FoundSlots := fun slot =>
  match found slot with
  | some .null => none
  | item => item

/-- The loop over the numeric fields, on the copy and the mask. -/
def decodeFields (found : FoundSlots) : List UserField → UserRecord × BitVec 32 →
    Except UserJsonErr (UserRecord × BitVec 32)
  | [], st => .ok st
  | f :: fs, (user, fields) =>
    match found (.field f) with
    | none => decodeFields found fs (user, fields)
    | some item =>
      match numberToInt64 item with
      | .error e => .error e
      | .ok v =>
        if f = .sessionsCap ∧ ¬ Fits32 v.val then .error .errRange
        else decodeFields found fs (f.set v user, fields ||| f.kBits)

/-- Whether the decoder gets the memory for its copy of the body, and cJSON all of its own. -/
structure UserJsonMem where
  copy : Bool
  tree : Bool

/-- `cloak_user_json_decode` behind its checks of the pointers, from the caller's record to what it is given at
the end. -/
def decodeBody (mem : UserJsonMem) (body : List UInt8) (info : UserRecord) :
    Except UserJsonErr (UserRecord × BitVec 32 × Int) :=
  if body.length = 0 then .error .errSyntax
  else if body.contains 0 then .error .errSyntax
  else if !mem.copy then .error .errMemory
  else
    match cjsonParseWithLengthOpts mem.tree (body ++ [0]) true with
    | none => .error .errSyntax
    | some (.object children) => do
      let found ← collect children fun _ => none
      let found := dropNulls found
      let (user, haveUid) ← match found .uid with
        | none => .ok (info, 0)
        | some item => (decodeUid item info).map fun user => (user, 1)
      let (user, fields) ← decodeFields found UserField.all (user, 0)
      .ok (user, fields, haveUid)
    | some _ => .error .errNotObject

/-- What the caller's three pointers point to. -/
structure UserJsonOut where
  info : Option UserRecord
  fields : Option (BitVec 32)
  haveUid : Option Int

/-- `cloak_user_json_decode`. -/
def cloakUserJsonDecode (mem : UserJsonMem) (body : CArray UInt8) (out : UserJsonOut) : Int × UserJsonOut :=
  match out.info, out.fields, out.haveUid with
  | some info, some _, some _ =>
    if body.missing then (UserJsonErr.errArg.code, out)
    else
      match decodeBody mem body.toList info with
      | .error e => (e.code, out)
      | .ok (user, fields, haveUid) => (0, ⟨some user, some fields, some haveUid⟩)
  | _, _, _ => (UserJsonErr.errArg.code, out)

end Cloak
