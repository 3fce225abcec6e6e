import Mathlib
import Cloak.Lib.BigEndian

set_option autoImplicit false

/-! # The ClientHello parser (`clienthello_parse.c`)

A cursor is the bytes that remain, and every field is taken off its front or the parse fails. The
loops over lists take at least one byte a turn, so the length of the list is fuel enough. -/

namespace Cloak

open Lib

/-- `cloak_clienthello_parsed_t`. A field that was not found is `none`. -/
structure ClientHelloParsed where
  random : List UInt8
  sessionId : Option (List UInt8)
  x25519KeyShare : Option (List UInt8)
  sni : Option (List UInt8)
deriving DecidableEq, Repr

/-- `cursor_take`, and `cursor_take_scoped`: the bytes taken and the cursor behind them. -/
def cursorTake (c : List UInt8) (n : Nat) : Option (List UInt8 × List UInt8) :=
  if c.length < n then none else some (c.take n, c.drop n)

/-- `cursor_take_u8`, `cursor_take_u16` and `cursor_take_u24`, for `n` bytes. -/
def cursorTakeNat (c : List UInt8) (n : Nat) : Option (Nat × List UInt8) :=
  (cursorTake c n).map fun p => (beNat p.1, p.2)

/-- The loop of `parse_key_share_ext`. -/
def parseShares : (fuel : Nat) → List UInt8 → Option (List UInt8) → Option (Option (List UInt8))
  | _, [], out => some out
  | 0, _ :: _, _ => none
  | fuel + 1, b :: list, out => do
    let (group, list) ← cursorTakeNat (b :: list) 2
    let (klen, list) ← cursorTakeNat list 2
    let (kdata, list) ← cursorTake list klen
    parseShares fuel list
      (if group = 0x001d ∧ klen = 32 ∧ out = none then some kdata else out)

/-- `parse_key_share_ext`. -/
def parseKeyShareExt (ext : List UInt8) (out : Option (List UInt8)) :
    Option (Option (List UInt8)) := do
  let (listLen, ext) ← cursorTakeNat ext 2
  let (list, _) ← cursorTake ext listLen
  parseShares list.length list out

/-- The loop of `parse_server_name_ext`. -/
def parseNames : (fuel : Nat) → List UInt8 → Option (List UInt8) → Option (Option (List UInt8))
  | _, [], out => some out
  | 0, _ :: _, _ => none
  | fuel + 1, b :: list, out => do
    let (nameType, list) ← cursorTakeNat (b :: list) 1
    let (nameLen, list) ← cursorTakeNat list 2
    let (name, list) ← cursorTake list nameLen
    parseNames fuel list (if nameType = 0x00 ∧ out = none then some name else out)

/-- `parse_server_name_ext`. -/
def parseServerNameExt (ext : List UInt8) (out : Option (List UInt8)) :
    Option (Option (List UInt8)) := do
  let (listLen, ext) ← cursorTakeNat ext 2
  let (list, _) ← cursorTake ext listLen
  parseNames list.length list out

/-- `parse_extensions`, from the name and the key share found so far. -/
def parseExtensions : (fuel : Nat) → List UInt8 → Option (List UInt8) → Option (List UInt8) →
    Option (Option (List UInt8) × Option (List UInt8))
  | _, [], sni, keyShare => some (sni, keyShare)
  | 0, _ :: _, _, _ => none
  | fuel + 1, b :: exts, sni, keyShare => do
    let (extType, exts) ← cursorTakeNat (b :: exts) 2
    let (extLen, exts) ← cursorTakeNat exts 2
    let (extData, exts) ← cursorTake exts extLen
    if extType = 0x0000 then
      let sni ← parseServerNameExt extData sni
      parseExtensions fuel exts sni keyShare
    else if extType = 0x0033 then
      let keyShare ← parseKeyShareExt extData keyShare
      parseExtensions fuel exts sni keyShare
    else parseExtensions fuel exts sni keyShare

/-- `cloak_clienthello_parse`. -/
def clienthelloParse (data : List UInt8) : Option ClientHelloParsed := do
  let (recordHdr, c) ← cursorTake data 5
  guard (recordHdr.take 3 = [0x16, 0x03, 0x01])
  let (handshakeType, c) ← cursorTakeNat c 1
  guard (handshakeType = 0x01)
  let (handshakeLen, c) ← cursorTakeNat c 3
  guard (handshakeLen = c.length)
  let (_, c) ← cursorTake c 2
  let (random, c) ← cursorTake c 32
  let (sessionIdLen, c) ← cursorTakeNat c 1
  let (sessionId, c) ← cursorTake c sessionIdLen
  let (cipherSuitesLen, c) ← cursorTakeNat c 2
  let (_, c) ← cursorTake c cipherSuitesLen
  let (compressionMethodsLen, c) ← cursorTakeNat c 1
  let (_, c) ← cursorTake c compressionMethodsLen
  let (extensionsLen, c) ← cursorTakeNat c 2
  let (extensions, _) ← cursorTake c extensionsLen
  let (sni, keyShare) ← parseExtensions extensions.length extensions none none
  return ⟨random, if sessionIdLen = 0 then none else some sessionId, keyShare, sni⟩

/-! ## Cursors over what was written -/

theorem cursorTake_append {xs : List UInt8} (rest : List UInt8) {n : Nat} (h : xs.length = n) :
    cursorTake (xs ++ rest) n = some (xs, rest) := by
  subst h
  rw [cursorTake, if_neg (by rw [List.length_append]; omega), List.take_left, List.drop_left]

theorem cursorTakeNat_beBytes {n v : Nat} (rest : List UInt8) (h : v < 256 ^ n) :
    cursorTakeNat (beBytes n v ++ rest) n = some (v, rest) := by
  rw [cursorTakeNat, cursorTake_append rest (length_beBytes n v), Option.map_some, beNat_beBytes n v h]

theorem cursorTakeNat_append {xs : List UInt8} (rest : List UInt8) {n : Nat} (h : xs.length = n) :
    cursorTakeNat (xs ++ rest) n = some (beNat xs, rest) := by
  rw [cursorTakeNat, cursorTake_append rest h, Option.map_some]

end Cloak
