import Cloak.Common.HelloTree
import Cloak.Server.ClientHelloParse

set_option autoImplicit false

/-! # Parsing the bytes of a tree

The parser on the bytes of a tree that fits: it finds the first name and the first X25519 share, and
steps over everything else. -/

namespace Cloak

open Lib

variable {out : Option (List UInt8)} {rest : List UInt8}

theorem cursorTakeNat_cons (b : UInt8) (rest : List UInt8) :
    cursorTakeNat (b :: rest) 1 = some (b.toNat, rest) := by
  have h := cursorTakeNat_append rest (show [b].length = 1 from rfl)
  simpa [beNat] using h

theorem cursorTakeNat_storeBe16 (v : UInt16) (rest : List UInt8) :
    cursorTakeNat (storeBe16 v ++ rest) 2 = some (v.toNat, rest) := by
  rw [cursorTakeNat_append rest (length_storeBe16 v), beNat_storeBe16]

/-- A length and what it covers are taken in two steps. -/
theorem cursorTakeNat_vec {n : Nat} {bs : List UInt8} (rest : List UInt8) (h : bs.length < 256 ^ n) :
    cursorTakeNat (vec n bs ++ rest) n = some (bs.length, bs ++ rest) := by
  rw [vec, List.append_assoc, cursorTakeNat_beBytes _ h]

/-- The last field of a cursor. -/
theorem cursorTakeNat_vec_self {n : Nat} (bs : List UInt8) (h : bs.length < 256 ^ n) :
    cursorTakeNat (vec n bs) n = some (bs.length, bs) := by
  simpa using cursorTakeNat_vec [] h

theorem cursorTake_self (bs : List UInt8) : cursorTake bs bs.length = some (bs, []) := by
  simpa using cursorTake_append [] (rfl : bs.length = _)

/-! ## The loops -/

/-- One turn of the loop over the names. -/
theorem parseNames_cons (fuel : Nat) (name : UInt8 × List UInt8) (hlen : name.2.length < 256 ^ 2) :
    parseNames (fuel + 1) (name.1 :: (vec 2 name.2 ++ rest)) out =
      parseNames fuel rest (if name.1 = 0x00 ∧ out = none then some name.2 else out) := by
  have htype : name.1.toNat = 0x00 ↔ name.1 = 0x00 := UInt8.toNat_inj (b := 0x00)
  rw [parseNames, cursorTakeNat_cons]
  simp only [Option.bind_eq_bind, Option.bind_some, cursorTakeNat_vec rest hlen,
    cursorTake_append rest rfl, htype]

theorem parseNames_encode (names : List (UInt8 × List UInt8)) (fuel : Nat)
    (hlen : (names.flatMap fun p => p.1 :: vec 2 p.2).length < 2 ^ 16)
    (hfuel : (names.flatMap fun p => p.1 :: vec 2 p.2).length ≤ fuel) :
    parseNames fuel (names.flatMap fun p => p.1 :: vec 2 p.2) out =
      some (out.or ((names.find? (·.1 = 0x00)).map Prod.snd)) := by
  induction names generalizing fuel out with
  | nil =>
    cases fuel <;> cases out <;> rfl
  | cons name names ih =>
    simp only [List.flatMap_cons, List.cons_append, List.length_cons, List.length_append,
      length_vec] at hlen hfuel ⊢
    cases fuel with
    | zero => omega
    | succ fuel =>
      rw [parseNames_cons fuel name (by omega), ih fuel (by omega) (by omega)]
      by_cases htype : name.1 = 0x00 <;> cases out <;> simp [htype]

/-- One turn of the loop over the shares. -/
theorem parseShares_cons (fuel : Nat) (share : UInt16 × List UInt8) (hlen : share.2.length < 256 ^ 2) :
    parseShares (fuel + 1) (storeBe16 share.1 ++ (vec 2 share.2 ++ rest)) out =
      parseShares fuel rest
        (if share.1 = 0x001d ∧ share.2.length = 32 ∧ out = none then some share.2 else out) := by
  have hgroup : share.1.toNat = 0x001d ↔ share.1 = 0x001d := UInt16.toNat_inj (b := 0x001d)
  have htake := cursorTakeNat_storeBe16 share.1 (vec 2 share.2 ++ rest)
  simp only [storeBe16, List.cons_append] at htake ⊢
  rw [parseShares, htake]
  simp only [Option.bind_eq_bind, Option.bind_some, cursorTakeNat_vec rest hlen,
    cursorTake_append rest rfl, hgroup]

theorem parseShares_encode (shares : List (UInt16 × List UInt8)) (fuel : Nat)
    (hlen : (shares.flatMap fun p => storeBe16 p.1 ++ vec 2 p.2).length < 2 ^ 16)
    (hfuel : (shares.flatMap fun p => storeBe16 p.1 ++ vec 2 p.2).length ≤ fuel) :
    parseShares fuel (shares.flatMap fun p => storeBe16 p.1 ++ vec 2 p.2) out =
      some (out.or ((shares.find? fun s => s.1 = 0x001d ∧ s.2.length = 32).map Prod.snd)) := by
  induction shares generalizing fuel out with
  | nil =>
    cases fuel <;> cases out <;> rfl
  | cons share shares ih =>
    simp only [List.flatMap_cons, List.append_assoc, List.length_append, length_storeBe16,
      length_vec] at hlen hfuel ⊢
    cases fuel with
    | zero => omega
    | succ fuel =>
      rw [parseShares_cons fuel share (by omega), ih fuel (by omega) (by omega)]
      by_cases hshare : share.1 = 0x001d ∧ share.2.length = 32
      · cases out <;> simp [hshare]
      · rw [if_neg fun h => hshare ⟨h.1, h.2.1⟩, List.find?_cons_of_neg (by simpa using hshare)]

/-! ## Extensions -/

theorem parseServerNameExt_list (names : List (UInt8 × List UInt8)) (rest : List UInt8)
    (hlen : (names.flatMap fun p => p.1 :: vec 2 p.2).length < 2 ^ 16) :
    parseServerNameExt (vec 2 (names.flatMap fun p => p.1 :: vec 2 p.2) ++ rest) out =
      some (out.or ((names.find? (·.1 = 0x00)).map Prod.snd)) := by
  rw [parseServerNameExt, cursorTakeNat_vec rest hlen]
  simp only [Option.bind_eq_bind, Option.bind_some, cursorTake_append rest rfl]
  exact parseNames_encode names _ hlen le_rfl

theorem parseKeyShareExt_list (shares : List (UInt16 × List UInt8)) (rest : List UInt8)
    (hlen : (shares.flatMap fun p => storeBe16 p.1 ++ vec 2 p.2).length < 2 ^ 16) :
    parseKeyShareExt (vec 2 (shares.flatMap fun p => storeBe16 p.1 ++ vec 2 p.2) ++ rest) out =
      some (out.or ((shares.find? fun s => s.1 = 0x001d ∧ s.2.length = 32).map Prod.snd)) := by
  rw [parseKeyShareExt, cursorTakeNat_vec rest hlen]
  simp only [Option.bind_eq_bind, Option.bind_some, cursorTake_append rest rfl]
  exact parseShares_encode shares _ hlen le_rfl

theorem parseServerNameExt_body (names : List (UInt8 × List UInt8))
    (hfits : (HelloExt.serverName names).Fits) :
    parseServerNameExt (HelloExt.serverName names).body out =
      some (out.or ((names.find? (·.1 = 0x00)).map Prod.snd)) := by
  have hlen := hfits.1
  simp only [HelloExt.body, length_vec] at hlen
  rw [HelloExt.body, ← List.append_nil (vec 2 _)]
  exact parseServerNameExt_list names [] (by omega)

theorem parseKeyShareExt_body (shares : List (UInt16 × List UInt8))
    (hfits : (HelloExt.keyShare shares).Fits) :
    parseKeyShareExt (HelloExt.keyShare shares).body out =
      some (out.or ((shares.find? fun s => s.1 = 0x001d ∧ s.2.length = 32).map Prod.snd)) := by
  have hlen := hfits.1
  simp only [HelloExt.body, length_vec] at hlen
  rw [HelloExt.body, ← List.append_nil (vec 2 _)]
  exact parseKeyShareExt_list shares [] (by omega)

/-- The header of an extension and its data. -/
theorem parseExtensions_turn (extType : UInt16) (body : List UInt8) (hlen : body.length < 2 ^ 16)
    (fuel : Nat) (sni keyShare : Option (List UInt8)) :
    parseExtensions (fuel + 1) (storeBe16 extType ++ (vec 2 body ++ rest)) sni keyShare =
      if extType = 0x0000 then
        (parseServerNameExt body sni).bind fun sni => parseExtensions fuel rest sni keyShare
      else if extType = 0x0033 then
        (parseKeyShareExt body keyShare).bind fun keyShare => parseExtensions fuel rest sni keyShare
      else parseExtensions fuel rest sni keyShare := by
  have hname : extType.toNat = 0x0000 ↔ extType = 0x0000 := UInt16.toNat_inj (b := 0x0000)
  have hshare : extType.toNat = 0x0033 ↔ extType = 0x0033 := UInt16.toNat_inj (b := 0x0033)
  have htake := cursorTakeNat_storeBe16 extType (vec 2 body ++ rest)
  simp only [storeBe16, List.cons_append] at htake ⊢
  rw [parseExtensions, htake]
  simp only [Option.bind_eq_bind, Option.bind_some,
    cursorTakeNat_vec rest (show body.length < 256 ^ 2 from hlen), cursorTake_append rest rfl, hname,
    hshare]

theorem parseExtensions_header (e : HelloExt) (hfits : e.Fits) (fuel : Nat)
    (sni keyShare : Option (List UInt8)) :
    parseExtensions (fuel + 1) (e.encode ++ rest) sni keyShare =
      if e.extType = 0x0000 then
        (parseServerNameExt e.body sni).bind fun sni => parseExtensions fuel rest sni keyShare
      else if e.extType = 0x0033 then
        (parseKeyShareExt e.body keyShare).bind fun keyShare => parseExtensions fuel rest sni keyShare
      else parseExtensions fuel rest sni keyShare := by
  rw [HelloExt.encode, List.append_assoc]
  exact parseExtensions_turn e.extType e.body hfits.1 fuel sni keyShare

/-- One turn of the loop over the extensions. -/
theorem parseExtensions_cons (e : HelloExt) (hfits : e.Fits) (fuel : Nat)
    (sni keyShare : Option (List UInt8)) :
    parseExtensions (fuel + 1) (e.encode ++ rest) sni keyShare =
      parseExtensions fuel rest (sni.or ((e.names.find? (·.1 = 0x00)).map Prod.snd))
        (keyShare.or ((e.shares.find? fun s => s.1 = 0x001d ∧ s.2.length = 32).map Prod.snd)) := by
  rw [parseExtensions_header e hfits]
  cases e with
  | serverName names =>
    rw [if_pos (show (HelloExt.serverName names).extType = 0x0000 from rfl),
      parseServerNameExt_body names hfits, Option.bind_some]
    simp [HelloExt.names, HelloExt.shares]
  | keyShare shares =>
    rw [if_neg (show (HelloExt.keyShare shares).extType ≠ 0x0000 by simp [HelloExt.extType]),
      if_pos (show (HelloExt.keyShare shares).extType = 0x0033 from rfl),
      parseKeyShareExt_body shares hfits, Option.bind_some]
    simp [HelloExt.names, HelloExt.shares]
  | plain extType data =>
    obtain ⟨-, htype⟩ := hfits
    have hname : extType ≠ 0x0000 := fun h => htype (by simp [h, structuredTypes])
    have hshare : extType ≠ 0x0033 := fun h => htype (by simp [h, structuredTypes])
    rw [if_neg (show (HelloExt.plain extType data).extType ≠ _ from hname),
      if_neg (show (HelloExt.plain extType data).extType ≠ _ from hshare)]
    simp [HelloExt.names, HelloExt.shares]
  | _ => simp [HelloExt.names, HelloExt.shares, HelloExt.extType]

theorem parseExtensions_encode (exts : List HelloExt) (hfits : ∀ e ∈ exts, e.Fits) (fuel : Nat)
    (hfuel : (exts.flatMap HelloExt.encode).length ≤ fuel) (sni keyShare : Option (List UInt8)) :
    parseExtensions fuel (exts.flatMap HelloExt.encode) sni keyShare =
      some (sni.or (((exts.flatMap HelloExt.names).find? (·.1 = 0x00)).map Prod.snd),
        keyShare.or (((exts.flatMap HelloExt.shares).find?
          fun s => s.1 = 0x001d ∧ s.2.length = 32).map Prod.snd)) := by
  induction exts generalizing fuel sni keyShare with
  | nil => cases fuel <;> cases sni <;> cases keyShare <;> rfl
  | cons e exts ih =>
    simp only [List.flatMap_cons, List.length_append] at hfuel ⊢
    have hpos : 2 ≤ e.encode.length := by simp [HelloExt.encode]
    cases fuel with
    | zero => omega
    | succ fuel =>
      rw [parseExtensions_cons e (hfits e List.mem_cons_self),
        ih (fun e' he' => hfits e' (List.mem_cons_of_mem _ he')) fuel (by omega)]
      simp only [List.find?_append, Option.map_or, Option.or_assoc]

/-- The parser returns what the tree has. -/
theorem clienthelloParse_encode (t : HelloTree) (hfits : t.Fits) :
    clienthelloParse t.encode = some
      { random := t.random
        sessionId := if t.sessionId.length = 0 then none else some t.sessionId
        x25519KeyShare := t.x25519Share
        sni := t.hostName } := by
  have hmessage := hfits.message
  have hsession := hfits.sessionId
  have hmethods := hfits.compressionMethods
  simp only [HelloTree.message, List.length_cons, length_vec, HelloTree.body, List.length_append,
    length_storeBe16] at hmessage
  have hheader : cursorTake t.encode 5 =
      some (0x16 :: (storeBe16 0x0301 ++ beBytes 2 t.message.length), t.message) := by
    have happend : t.encode = (0x16 :: (storeBe16 0x0301 ++ beBytes 2 t.message.length)) ++ t.message := by
      simp [HelloTree.encode, vec]
    rw [happend]
    exact cursorTake_append _ rfl
  have hexts : (t.exts.flatMap HelloExt.encode).length < 256 ^ 2 := by omega
  have hbody : t.body.length < 256 ^ 3 := by
    simp only [HelloTree.body, List.length_append, length_storeBe16, length_vec]
    omega
  have hsuites : (codes t.cipherSuites).length < 256 ^ 2 := by omega
  have hsession' : t.sessionId.length < 256 ^ 1 := hsession
  have hmethods' : t.compressionMethods.length < 256 ^ 1 := hmethods
  have hrecord : ∀ n, (0x16 :: (storeBe16 0x0301 ++ beBytes 2 n)).take 3 = [0x16, 0x03, 0x01] :=
    fun _ => rfl
  have htype : UInt8.toNat 0x01 = 0x01 := rfl
  rw [clienthelloParse, hheader]
  simp only [HelloTree.message, Option.bind_eq_bind, Option.bind_some, cursorTakeNat_cons,
    cursorTakeNat_vec_self _ hbody, guard, if_true, htype, Option.pure_def]
  rw [if_pos (hrecord _)]
  simp only [Option.bind_some, HelloTree.body, cursorTake_append _ (length_storeBe16 _),
    cursorTake_append _ hfits.random, cursorTakeNat_vec _ hsession', cursorTake_append _ rfl,
    cursorTakeNat_vec _ hsuites, cursorTakeNat_vec _ hmethods', cursorTakeNat_vec_self _ hexts,
    cursorTake_self, parseExtensions_encode t.exts hfits.exts _ le_rfl, Option.none_or]
  rfl

end Cloak
