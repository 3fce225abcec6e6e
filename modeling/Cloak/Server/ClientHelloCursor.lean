import Mathlib
import Cloak.Lib.Outcome
import Cloak.Lib.Slice
import Cloak.Server.ClientHelloParse

set_option autoImplicit false

/-! # The ClientHello parser over its input (`clienthello_parse.c`)

The parser as the code has it: a cursor is a pointer and a count, a field is the bytes at the pointer,
and the result points into the input. A byte that is read outside the input makes the parse stuck, and
so does a loop that has not ended after as many turns as its list has bytes. `parse_matches` says that
neither happens, and that the result is the one of `clienthelloParse`, whose cursors are the bytes
themselves. -/

namespace Cloak

open Lib

/-- `cursor_t`, the pointer as an offset into the input. -/
structure Cursor where
  p : Nat
  remaining : Nat
deriving DecidableEq, Repr

/-- `cloak_clienthello_parsed_t`: pointers as offsets, `none` for `NULL`. -/
structure ClientHelloOut where
  random : Option Nat
  sessionId : Option Nat
  sessionIdLen : Nat
  x25519KeyShare : Option Nat
  sni : Option Nat
  sniLen : Nat
deriving DecidableEq, Repr

/-- Every field `NULL` or zero. -/
def ClientHelloOut.cleared : ClientHelloOut := ⟨none, none, 0, none, none, 0⟩

/-- The byte at `i`; there is none outside the input. -/
def byteAt (data : List UInt8) (i : Nat) : Outcome UInt8 :=
  match data[i]? with
  | some b => .ok b
  | none => .stuck

namespace Cursor

/-- `cursor_take`. -/
def take (c : Cursor) (n : Nat) : Outcome (Nat × Cursor) :=
  if c.remaining < n then .reject else .ok (c.p, ⟨c.p + n, c.remaining - n⟩)

/-- `cursor_take_u8`. -/
def takeU8 (data : List UInt8) (c : Cursor) : Outcome (Nat × Cursor) := do
  let (p, c) ← c.take 1
  let b ← byteAt data p
  .ok (b.toNat, c)

/-- `cursor_take_u16`. -/
def takeU16 (data : List UInt8) (c : Cursor) : Outcome (Nat × Cursor) := do
  let (p, c) ← c.take 2
  let b ← byteAt data p
  let b' ← byteAt data (p + 1)
  .ok (b.toNat * 2 ^ 8 + b'.toNat, c)

/-- `cursor_take_u24`. -/
def takeU24 (data : List UInt8) (c : Cursor) : Outcome (Nat × Cursor) := do
  let (p, c) ← c.take 3
  let b ← byteAt data p
  let b' ← byteAt data (p + 1)
  let b'' ← byteAt data (p + 2)
  .ok (b.toNat * 2 ^ 16 + b'.toNat * 2 ^ 8 + b''.toNat, c)

/-- `cursor_take_scoped`. -/
def takeScoped (c : Cursor) (n : Nat) : Outcome (Cursor × Cursor) := do
  let (p, c) ← c.take n
  .ok (⟨p, n⟩, c)

/-- `cursor_skip`. -/
def skip (c : Cursor) (n : Nat) : Outcome Cursor := do
  let (_, c) ← c.take n
  .ok c

end Cursor

/-- The loop of `parse_key_share_ext`. -/
def walkShares (data : List UInt8) : (fuel : Nat) → Cursor → Option Nat → Outcome (Option Nat)
  | 0, list, out => if 0 < list.remaining then .stuck else .ok out
  | fuel + 1, list, out =>
    if 0 < list.remaining then do
      let (group, list) ← list.takeU16 data
      let (klen, list) ← list.takeU16 data
      let (kdata, list) ← list.take klen
      walkShares data fuel list (if group = 0x001d ∧ klen = 32 ∧ out = none then some kdata else out)
    else .ok out

/-- `parse_key_share_ext`. -/
def walkKeyShareExt (data : List UInt8) (ext : Cursor) (out : Option Nat) :
    Outcome (Option Nat) := do
  let (listLen, ext) ← ext.takeU16 data
  let (list, _) ← ext.takeScoped listLen
  walkShares data list.remaining list out

/-- The loop of `parse_server_name_ext`: the first name is kept with its length. -/
def walkNames (data : List UInt8) : (fuel : Nat) → Cursor → Option Nat × Nat →
    Outcome (Option Nat × Nat)
  | 0, list, out => if 0 < list.remaining then .stuck else .ok out
  | fuel + 1, list, out =>
    if 0 < list.remaining then do
      let (nameType, list) ← list.takeU8 data
      let (nameLen, list) ← list.takeU16 data
      let (name, list) ← list.take nameLen
      walkNames data fuel list
        (if nameType = 0x00 ∧ out.1 = none then (some name, nameLen) else out)
    else .ok out

/-- `parse_server_name_ext`. -/
def walkServerNameExt (data : List UInt8) (ext : Cursor) (out : Option Nat × Nat) :
    Outcome (Option Nat × Nat) := do
  let (listLen, ext) ← ext.takeU16 data
  let (list, _) ← ext.takeScoped listLen
  walkNames data list.remaining list out

/-- `parse_extensions`. -/
def walkExtensions (data : List UInt8) : (fuel : Nat) → Cursor → Option Nat × Nat → Option Nat →
    Outcome ((Option Nat × Nat) × Option Nat)
  | 0, exts, sni, keyShare => if 0 < exts.remaining then .stuck else .ok (sni, keyShare)
  | fuel + 1, exts, sni, keyShare =>
    if 0 < exts.remaining then do
      let (extType, exts) ← exts.takeU16 data
      let (extLen, exts) ← exts.takeU16 data
      let (extData, exts) ← exts.takeScoped extLen
      if extType = 0x0000 then
        let sni ← walkServerNameExt data extData sni
        walkExtensions data fuel exts sni keyShare
      else if extType = 0x0033 then
        let keyShare ← walkKeyShareExt data extData keyShare
        walkExtensions data fuel exts sni keyShare
      else walkExtensions data fuel exts sni keyShare
    else .ok (sni, keyShare)

/-- The session id of `cloak_clienthello_parse`: nothing is taken when its length is 0. -/
def Cursor.takeNonempty (c : Cursor) (n : Nat) : Outcome (Option Nat × Cursor) :=
  if 0 < n then do
    let (p, c) ← c.take n
    .ok (some p, c)
  else .ok (none, c)

/-- The body of `cloak_clienthello_parse`, up to the assignments at its end. -/
def walkHello (data : List UInt8) : Outcome ClientHelloOut := do
  let (recordHdr, c) ← (Cursor.mk 0 data.length).take 5
  let contentType ← byteAt data recordHdr
  let major ← byteAt data (recordHdr + 1)
  let minor ← byteAt data (recordHdr + 2)
  if contentType = 0x16 ∧ major = 0x03 ∧ minor = 0x01 then do
    let (handshakeType, c) ← c.takeU8 data
    if handshakeType = 0x01 then do
      let (handshakeLen, c) ← c.takeU24 data
      if handshakeLen = c.remaining then do
        let (_, c) ← c.take 2
        let (random, c) ← c.take 32
        let (sessionIdLen, c) ← c.takeU8 data
        let (sessionId, c) ← c.takeNonempty sessionIdLen
        let (cipherSuitesLen, c) ← c.takeU16 data
        let c ← c.skip cipherSuitesLen
        let (compressionMethodsLen, c) ← c.takeU8 data
        let c ← c.skip compressionMethodsLen
        let (extensionsLen, c) ← c.takeU16 data
        let (extensions, _) ← c.takeScoped extensionsLen
        let (sni, keyShare) ← walkExtensions data extensions.remaining extensions (none, 0) none
        .ok ⟨some random, sessionId, sessionIdLen, keyShare, sni.1, sni.2⟩
      else .reject
    else .reject
  else .reject

/-- `cloak_clienthello_parse`: whether it returned 0, and what it left in `*out`. `none` is a parse that
    got stuck. -/
def clienthelloParseInto (data : List UInt8) : Option (Bool × ClientHelloOut) :=
  match walkHello data with
  | .ok out => some (true, out)
  | .reject => some (false, .cleared)
  | .stuck => none

/-! ## The two parsers side by side -/

/-- The cursor is over the bytes `bs` of the input. -/
def Cursor.Views (data : List UInt8) (c : Cursor) (bs : List UInt8) : Prop :=
  ∃ before after, data = before ++ (bs ++ after) ∧ before.length = c.p ∧ bs.length = c.remaining

variable {data bs : List UInt8} {c : Cursor} {n : Nat}

theorem Cursor.Views.byteAt (h : c.Views data bs) {i : Nat} (hi : i < bs.length) :
    Cloak.byteAt data (c.p + i) = .ok bs[i] := by
  obtain ⟨before, after, rfl, hp, -⟩ := h
  unfold Cloak.byteAt
  rw [← hp, List.getElem?_append_right (Nat.le_add_right _ _), Nat.add_sub_cancel_left,
    List.getElem?_append_left hi, List.getElem?_eq_getElem hi]

/-- A field is taken: the cursor over it, and the one behind it. -/
theorem Cursor.Views.take (h : c.Views data bs) (n : Nat) :
    Outcome.Matches (fun a b => a.1 = c.p ∧ (Cursor.mk c.p n).Views data b.1 ∧ a.2.Views data b.2
      ∧ a.2.remaining + n = c.remaining) (c.take n) (cursorTake bs n) := by
  obtain ⟨before, after, hdata, hp, hlen⟩ := h
  unfold Cursor.take cursorTake
  rw [hlen]
  split
  · trivial
  · next hfits =>
    have hsplit := List.take_append_drop n bs
    refine ⟨rfl, ⟨before, bs.drop n ++ after, ?_, hp, ?_⟩, ⟨before ++ bs.take n, after, ?_, ?_, ?_⟩,
      ?_⟩
    · rw [hdata, ← List.append_assoc (bs.take n), hsplit]
    · simp only [List.length_take]
      omega
    · rw [hdata, List.append_assoc, ← List.append_assoc (bs.take n), hsplit]
    · simp only [List.length_append, List.length_take]
      omega
    · simp only [List.length_drop]
      omega
    · dsimp only
      omega

/-- The same number, and a cursor over the bytes behind it. -/
def Cursor.ReadNat (data : List UInt8) (c : Cursor) (n : Nat) (a : Nat × Cursor)
    (b : Nat × List UInt8) : Prop :=
  a.1 = b.1 ∧ a.2.Views data b.2 ∧ a.2.remaining + n = c.remaining

theorem cursorTakeNat_bind (bs : List UInt8) (n : Nat) :
    cursorTakeNat bs n = (cursorTake bs n).bind fun p => some (beNat p.1, p.2) :=
  Option.map_eq_bind

theorem Cursor.Views.takeU8 (h : c.Views data bs) :
    Outcome.Matches (c.ReadNat data 1) (c.takeU8 data) (cursorTakeNat bs 1) := by
  rw [cursorTakeNat_bind]
  refine (h.take 1).bind fun ⟨p, c'⟩ ⟨xs, rest⟩ ⟨hp, hxs, hrest, hlen⟩ => ?_
  have hbyte := fun i (hi : i < xs.length) => hxs.byteAt hi
  obtain ⟨-, -, -, -, hxslen⟩ := hxs
  obtain ⟨b, rfl⟩ := List.length_eq_one_iff.mp hxslen
  dsimp only at hp hbyte ⊢
  have hfirst := hbyte 0 Nat.one_pos
  dsimp only [Nat.add_zero] at hfirst
  rw [hp, hfirst]
  exact ⟨by simp [beNat], hrest, hlen⟩

theorem Cursor.Views.takeU16 (h : c.Views data bs) :
    Outcome.Matches (c.ReadNat data 2) (c.takeU16 data) (cursorTakeNat bs 2) := by
  rw [cursorTakeNat_bind]
  refine (h.take 2).bind fun ⟨p, c'⟩ ⟨xs, rest⟩ ⟨hp, hxs, hrest, hlen⟩ => ?_
  have hbyte := fun i (hi : i < xs.length) => hxs.byteAt hi
  obtain ⟨-, -, -, -, hxslen⟩ := hxs
  obtain ⟨b, b', rfl⟩ := List.length_eq_two.mp hxslen
  dsimp only at hp hbyte ⊢
  have hfirst := hbyte 0 Nat.two_pos
  have hsecond := hbyte 1 Nat.one_lt_two
  dsimp only [Nat.add_zero] at hfirst hsecond
  rw [hp, hfirst]
  simp only [Outcome.bind_ok]
  rw [hsecond]
  exact ⟨by simp [beNat], hrest, hlen⟩

theorem Cursor.Views.takeU24 (h : c.Views data bs) :
    Outcome.Matches (c.ReadNat data 3) (c.takeU24 data) (cursorTakeNat bs 3) := by
  rw [cursorTakeNat_bind]
  refine (h.take 3).bind fun ⟨p, c'⟩ ⟨xs, rest⟩ ⟨hp, hxs, hrest, hlen⟩ => ?_
  have hbyte := fun i (hi : i < xs.length) => hxs.byteAt hi
  obtain ⟨-, -, -, -, hxslen⟩ := hxs
  obtain ⟨b, b', b'', rfl⟩ := List.length_eq_three.mp hxslen
  dsimp only at hp hbyte ⊢
  have hfirst := hbyte 0 (by simp)
  have hsecond := hbyte 1 (by simp)
  have hthird := hbyte 2 (by simp)
  dsimp only [Nat.add_zero] at hfirst hsecond hthird
  rw [hp, hfirst]
  simp only [Outcome.bind_ok]
  rw [hsecond]
  simp only [Outcome.bind_ok]
  rw [hthird]
  exact ⟨by simp [beNat]; omega, hrest, hlen⟩

theorem Cursor.Views.takeScoped (h : c.Views data bs) (n : Nat) :
    Outcome.Matches (fun a b => a.1 = ⟨c.p, n⟩ ∧ a.1.Views data b.1 ∧ a.2.Views data b.2
      ∧ a.2.remaining + n = c.remaining) (c.takeScoped n) (cursorTake bs n) := by
  have htake := h.take n
  unfold Cursor.takeScoped
  generalize c.take n = o at htake
  generalize cursorTake bs n = q at htake
  rcases o with ⟨p, c'⟩ | _ | _ <;> rcases q with _ | ⟨xs, rest⟩
  · exact htake.elim
  · obtain ⟨rfl, hxs, hrest, hlen⟩ := htake
    exact ⟨rfl, hxs, hrest, hlen⟩
  · trivial
  · exact htake.elim
  · exact htake.elim
  · exact htake.elim

theorem Cursor.Views.skip (h : c.Views data bs) (n : Nat) :
    Outcome.Matches (fun a b => a.Views data b.2) (c.skip n) (cursorTake bs n) := by
  have htake := h.take n
  unfold Cursor.skip
  generalize c.take n = o at htake
  generalize cursorTake bs n = q at htake
  rcases o with ⟨p, c'⟩ | _ | _ <;> rcases q with _ | ⟨xs, rest⟩
  · exact htake.elim
  · exact htake.2.2.1
  · trivial
  · exact htake.elim
  · exact htake.elim
  · exact htake.elim

/-! ## The loops -/

/-- The pointer is to the bytes, or both are missing. -/
def Points (data : List UInt8) (n : Nat) : Option Nat → Option (List UInt8) → Prop
  | some p, some bs => (Cursor.mk p n).Views data bs
  | none, none => True
  | _, _ => False

theorem Points.none_iff {p : Option Nat} {q : Option (List UInt8)} (h : Points data n p q) :
    p = none ↔ q = none := by
  cases p <;> cases q <;> simp_all [Points]

theorem Cursor.Views.length (h : c.Views data bs) : bs.length = c.remaining :=
  let ⟨_, _, _, _, hlen⟩ := h
  hlen

theorem Cursor.Views.walkShares (fuel : Nat) {out : Option Nat} {out' : Option (List UInt8)}
    (h : c.Views data bs) (hout : Points data 32 out out') (hfuel : c.remaining ≤ fuel) :
    Outcome.Matches (Points data 32) (Cloak.walkShares data fuel c out)
      (parseShares fuel bs out') := by
  induction fuel generalizing c bs out out' with
  | zero =>
    have hlen := h.length
    obtain rfl : bs = [] := List.length_eq_zero_iff.mp (by omega)
    rw [Cloak.walkShares, if_neg (by omega)]
    exact hout
  | succ fuel ih =>
    have hlen := h.length
    rw [Cloak.walkShares]
    cases bs with
    | nil =>
      rw [if_neg (by simp [← hlen])]
      exact hout
    | cons b bs =>
      rw [if_pos (by rw [← hlen]; exact Nat.succ_pos _), parseShares]
      refine h.takeU16.bind fun ⟨group, c₁⟩ ⟨_, bs₁⟩ ⟨hgroup, h₁, hless₁⟩ => ?_
      refine h₁.takeU16.bind fun ⟨klen, c₂⟩ ⟨_, bs₂⟩ ⟨hklen, h₂, hless₂⟩ => ?_
      dsimp only at hgroup hklen h₂ hless₁ hless₂ ⊢
      subst hgroup hklen
      refine (h₂.take klen).bind fun ⟨kdata, c₃⟩ ⟨kdata', bs₃⟩ ⟨hp, hkdata, h₃, hless₃⟩ => ?_
      dsimp only at hp hkdata h₃ hless₃ ⊢
      refine ih h₃ ?_ (by omega)
      subst hp
      by_cases hfirst : group = 0x001d ∧ klen = 32 ∧ out = none
      · rw [if_pos hfirst, if_pos ⟨hfirst.1, hfirst.2.1, hout.none_iff.mp hfirst.2.2⟩]
        rw [hfirst.2.1] at hkdata
        exact hkdata
      · rw [if_neg hfirst, if_neg fun hf => hfirst ⟨hf.1, hf.2.1, hout.none_iff.mpr hf.2.2⟩]
        exact hout

theorem Cursor.Views.walkKeyShareExt {out : Option Nat} {out' : Option (List UInt8)}
    (h : c.Views data bs) (hout : Points data 32 out out') :
    Outcome.Matches (Points data 32) (Cloak.walkKeyShareExt data c out) (parseKeyShareExt bs out') := by
  refine h.takeU16.bind fun ⟨listLen, c₁⟩ ⟨_, bs₁⟩ ⟨hlen, h₁, _⟩ => ?_
  dsimp only at hlen h₁ ⊢
  subst hlen
  refine (h₁.takeScoped listLen).bind fun ⟨list, c₂⟩ ⟨list', bs₂⟩ ⟨_, hlist, _⟩ => ?_
  dsimp only at hlist ⊢
  rw [← hlist.length]
  exact hlist.walkShares _ hout (Nat.le_of_eq hlist.length.symm)

/-- The name that is kept, with its length. -/
def Names (data : List UInt8) (out : Option Nat × Nat) (out' : Option (List UInt8)) : Prop :=
  Points data out.2 out.1 out' ∧ (out.1 = none → out.2 = 0)

theorem Cursor.Views.walkNames (fuel : Nat) {out : Option Nat × Nat} {out' : Option (List UInt8)}
    (h : c.Views data bs) (hout : Names data out out') (hfuel : c.remaining ≤ fuel) :
    Outcome.Matches (Names data) (Cloak.walkNames data fuel c out) (parseNames fuel bs out') := by
  induction fuel generalizing c bs out out' with
  | zero =>
    have hlen := h.length
    obtain rfl : bs = [] := List.length_eq_zero_iff.mp (by omega)
    rw [Cloak.walkNames, if_neg (by omega)]
    exact hout
  | succ fuel ih =>
    have hlen := h.length
    rw [Cloak.walkNames]
    cases bs with
    | nil =>
      rw [if_neg (by simp [← hlen])]
      exact hout
    | cons b bs =>
      rw [if_pos (by rw [← hlen]; exact Nat.succ_pos _), parseNames]
      refine h.takeU8.bind fun ⟨nameType, c₁⟩ ⟨_, bs₁⟩ ⟨htype, h₁, hless₁⟩ => ?_
      refine h₁.takeU16.bind fun ⟨nameLen, c₂⟩ ⟨_, bs₂⟩ ⟨hnameLen, h₂, hless₂⟩ => ?_
      dsimp only at htype hnameLen h₂ hless₁ hless₂ ⊢
      subst htype hnameLen
      refine (h₂.take nameLen).bind fun ⟨name, c₃⟩ ⟨name', bs₃⟩ ⟨hp, hname, h₃, hless₃⟩ => ?_
      dsimp only at hp hname h₃ hless₃ ⊢
      refine ih h₃ ?_ (by omega)
      subst hp
      by_cases hfirst : nameType = 0x00 ∧ out.1 = none
      · rw [if_pos hfirst, if_pos ⟨hfirst.1, hout.1.none_iff.mp hfirst.2⟩]
        exact ⟨hname, by simp⟩
      · rw [if_neg hfirst, if_neg fun hf => hfirst ⟨hf.1, hout.1.none_iff.mpr hf.2⟩]
        exact hout

theorem Cursor.Views.walkServerNameExt {out : Option Nat × Nat} {out' : Option (List UInt8)}
    (h : c.Views data bs) (hout : Names data out out') :
    Outcome.Matches (Names data) (Cloak.walkServerNameExt data c out)
      (parseServerNameExt bs out') := by
  refine h.takeU16.bind fun ⟨listLen, c₁⟩ ⟨_, bs₁⟩ ⟨hlen, h₁, _⟩ => ?_
  dsimp only at hlen h₁ ⊢
  subst hlen
  refine (h₁.takeScoped listLen).bind fun ⟨list, c₂⟩ ⟨list', bs₂⟩ ⟨_, hlist, _⟩ => ?_
  dsimp only at hlist ⊢
  rw [← hlist.length]
  exact hlist.walkNames _ hout (Nat.le_of_eq hlist.length.symm)

/-- What the walk over the extensions has found. -/
def Found (data : List UInt8) (out : (Option Nat × Nat) × Option Nat)
    (out' : Option (List UInt8) × Option (List UInt8)) : Prop :=
  Names data out.1 out'.1 ∧ Points data 32 out.2 out'.2

theorem Cursor.Views.walkExtensions (fuel : Nat) {sni : Option Nat × Nat}
    {sni' : Option (List UInt8)} {keyShare : Option Nat} {keyShare' : Option (List UInt8)}
    (h : c.Views data bs) (hsni : Names data sni sni') (hkey : Points data 32 keyShare keyShare')
    (hfuel : c.remaining ≤ fuel) :
    Outcome.Matches (Found data) (Cloak.walkExtensions data fuel c sni keyShare)
      (parseExtensions fuel bs sni' keyShare') := by
  induction fuel generalizing c bs sni sni' keyShare keyShare' with
  | zero =>
    have hlen := h.length
    obtain rfl : bs = [] := List.length_eq_zero_iff.mp (by omega)
    rw [Cloak.walkExtensions, if_neg (by omega)]
    exact ⟨hsni, hkey⟩
  | succ fuel ih =>
    have hlen := h.length
    rw [Cloak.walkExtensions]
    cases bs with
    | nil =>
      rw [if_neg (by simp [← hlen])]
      exact ⟨hsni, hkey⟩
    | cons b bs =>
      rw [if_pos (by rw [← hlen]; exact Nat.succ_pos _), parseExtensions]
      refine h.takeU16.bind fun ⟨extType, c₁⟩ ⟨_, bs₁⟩ ⟨htype, h₁, hless₁⟩ => ?_
      refine h₁.takeU16.bind fun ⟨extLen, c₂⟩ ⟨_, bs₂⟩ ⟨hextLen, h₂, hless₂⟩ => ?_
      dsimp only at htype hextLen h₂ hless₁ hless₂ ⊢
      subst htype hextLen
      refine (h₂.takeScoped extLen).bind fun ⟨extData, c₃⟩ ⟨extData', bs₃⟩ ⟨_, hext, h₃, hless₃⟩ => ?_
      dsimp only at hext h₃ hless₃ ⊢
      split
      · exact (hext.walkServerNameExt hsni).bind fun _ _ hsni => ih h₃ hsni hkey (by omega)
      · split
        · exact (hext.walkKeyShareExt hkey).bind fun _ _ hkey => ih h₃ hsni hkey (by omega)
        · exact ih h₃ hsni hkey (by omega)

/-! ## The whole message -/

theorem Cursor.Views.takeNonempty (h : c.Views data bs) (n : Nat) :
    Outcome.Matches (fun a b => Points data n a.1 (if n = 0 then none else some b.1)
      ∧ (a.1 = none → n = 0) ∧ a.2.Views data b.2) (c.takeNonempty n) (cursorTake bs n) := by
  unfold Cursor.takeNonempty
  rcases Nat.eq_zero_or_pos n with rfl | hn
  · rw [if_neg (Nat.lt_irrefl 0), cursorTake, if_neg (Nat.not_lt_zero _), List.drop_zero]
    exact ⟨trivial, fun _ => rfl, h⟩
  · have hne : n ≠ 0 := by omega
    have htake := h.take n
    rw [if_pos hn]
    revert htake
    cases c.take n <;> cases cursorTake bs n <;> intro htake
    all_goals first | exact htake.elim | trivial | skip
    obtain ⟨hp, hfield, hrest, -⟩ := htake
    refine ⟨?_, ?_, hrest⟩
    · rw [if_neg hne, hp]
      exact hfield
    · intro hnone
      cases hnone

/-- The result points to the fields. -/
structure ClientHelloOut.Reads (data : List UInt8) (out : ClientHelloOut)
    (parsed : ClientHelloParsed) : Prop where
  random : Points data 32 out.random (some parsed.random)
  sessionId : Points data out.sessionIdLen out.sessionId parsed.sessionId
  sessionIdLen : out.sessionId = none → out.sessionIdLen = 0
  keyShare : Points data 32 out.x25519KeyShare parsed.x25519KeyShare
  sni : Points data out.sniLen out.sni parsed.sni
  sniLen : out.sni = none → out.sniLen = 0

/-- The parse never gets stuck, and it is the one over plain bytes. -/
theorem walkHello_matches (data : List UInt8) :
    Outcome.Matches (ClientHelloOut.Reads data) (walkHello data) (clienthelloParse data) := by
  have hstart : (Cursor.mk 0 data.length).Views data data := ⟨[], [], by simp, rfl, rfl⟩
  unfold walkHello clienthelloParse
  refine (hstart.take 5).bind fun ⟨recordHdr, c₁⟩ ⟨hdr, bs₁⟩ ⟨hp, hhdr, h₁, _⟩ => ?_
  have hbyte := fun i (hi : i < hdr.length) => hhdr.byteAt hi
  have hhdrLen := hhdr.length
  dsimp only at hp h₁ hbyte hhdrLen ⊢
  obtain ⟨contentType, major, minor, rest, rfl⟩ :
      ∃ contentType major minor rest, hdr = contentType :: major :: minor :: rest := by
    match hdr, hhdrLen with
    | contentType :: major :: minor :: rest, _ => exact ⟨contentType, major, minor, rest, rfl⟩
  have hfirst := hbyte 0 (by simp)
  have hsecond := hbyte 1 (by simp)
  have hthird := hbyte 2 (by simp)
  dsimp only [Nat.add_zero] at hfirst hsecond hthird
  rw [hp, hfirst]
  simp only [Outcome.bind_ok]
  rw [hsecond]
  simp only [Outcome.bind_ok]
  rw [hthird]
  simp only [Outcome.bind_ok]
  refine Outcome.Matches.require (by simp) fun _ => ?_
  refine h₁.takeU8.bind fun ⟨handshakeType, c₂⟩ ⟨_, bs₂⟩ ⟨htype, h₂, _⟩ => ?_
  dsimp only at htype h₂ ⊢
  refine Outcome.Matches.require (by rw [htype]) fun _ => ?_
  refine h₂.takeU24.bind fun ⟨handshakeLen, c₃⟩ ⟨_, bs₃⟩ ⟨hlen, h₃, _⟩ => ?_
  dsimp only at hlen h₃ ⊢
  refine Outcome.Matches.require (by rw [hlen, h₃.length]) fun _ => ?_
  refine (h₃.take 2).bind fun ⟨_, c₄⟩ ⟨_, bs₄⟩ ⟨_, _, h₄, _⟩ => ?_
  dsimp only at h₄ ⊢
  refine (h₄.take 32).bind fun ⟨random, c₅⟩ ⟨random', bs₅⟩ ⟨hp₅, hrandom, h₅, _⟩ => ?_
  dsimp only at hp₅ hrandom h₅ ⊢
  refine h₅.takeU8.bind fun ⟨sessionIdLen, c₆⟩ ⟨_, bs₆⟩ ⟨hsessionLen, h₆, _⟩ => ?_
  dsimp only at hsessionLen h₆ ⊢
  subst hsessionLen hp₅
  refine (h₆.takeNonempty sessionIdLen).bind fun ⟨sessionId, c₇⟩ ⟨sessionId', bs₇⟩ ⟨hpoints, hnone, h₇⟩ => ?_
  dsimp only at hpoints hnone h₇ ⊢
  refine h₇.takeU16.bind fun ⟨suitesLen, c₈⟩ ⟨_, bs₈⟩ ⟨hsuites, h₈, _⟩ => ?_
  dsimp only at hsuites h₈ ⊢
  subst hsuites
  refine (h₈.skip suitesLen).bind fun c₉ ⟨_, bs₉⟩ h₉ => ?_
  dsimp only at h₉ ⊢
  refine h₉.takeU8.bind fun ⟨methodsLen, c₁₀⟩ ⟨_, bs₁₀⟩ ⟨hmethods, h₁₀, _⟩ => ?_
  dsimp only at hmethods h₁₀ ⊢
  subst hmethods
  refine (h₁₀.skip methodsLen).bind fun c₁₁ ⟨_, bs₁₁⟩ h₁₁ => ?_
  dsimp only at h₁₁ ⊢
  refine h₁₁.takeU16.bind fun ⟨extsLen, c₁₂⟩ ⟨_, bs₁₂⟩ ⟨hexts, h₁₂, _⟩ => ?_
  dsimp only at hexts h₁₂ ⊢
  subst hexts
  refine (h₁₂.takeScoped extsLen).bind fun ⟨exts, c₁₃⟩ ⟨exts', bs₁₃⟩ ⟨_, hscope, _⟩ => ?_
  dsimp only at hscope ⊢
  rw [← hscope.length]
  have hnothing : Names data (none, 0) none := ⟨trivial, fun _ => rfl⟩
  have hnoShare : Points data 32 none none := trivial
  refine (hscope.walkExtensions _ hnothing hnoShare (Nat.le_of_eq hscope.length.symm)).bind
    fun ⟨sni, keyShare⟩ ⟨sni', keyShare'⟩ ⟨hsni, hkey⟩ => ?_
  exact ⟨hrandom, hpoints, hnone, hkey, hsni.1, hsni.2⟩

end Cloak
