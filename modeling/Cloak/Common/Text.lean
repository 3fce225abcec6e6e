import Cloak.Lib.CrlfLines

set_option autoImplicit false

/-! # Texts as bytes

The helpers for header fields. `http.c` and `ws_handshake.c` keep copies of them each; they are the same
functions. -/

namespace Cloak

/-- The bytes of a text of the protocol. -/
def asciiBytes (s : String) : List UInt8 := s.toList.map fun c => UInt8.ofNat c.toNat

/-- The bytes of a literal, without decoding it. -/
theorem asciiBytes_ofList (cs : List Char) :
    asciiBytes (String.ofList cs) = cs.map fun c => UInt8.ofNat c.toNat := by
  rw [asciiBytes, String.toList_ofList]

/-- `ascii_lower`. -/
def asciiLower (c : UInt8) : UInt8 := if 0x41 ≤ c ∧ c ≤ 0x5a then c - 0x41 + 0x61 else c

/-- `is_tchar`, which is `is_token_octet`. -/
def isTchar (c : UInt8) : Bool :=
  (0x61 ≤ c && c ≤ 0x7a) || (0x41 ≤ c && c ≤ 0x5a) || (0x30 ≤ c && c ≤ 0x39)
    || (asciiBytes "!#$%&'*+-.^_`|~").contains c

/-- `is_ows`. -/
def isOws (c : UInt8) : Bool := c = 0x20 || c = 0x09

/-- A field value without the white space around it. -/
def trimOws (raw : List UInt8) : List UInt8 := (raw.dropWhile isOws).rdropWhile isOws

/-- `name_is`, and `ci_eq` against a text in lower case. -/
def nameIs (name : List UInt8) (lower : String) : Bool := name.map asciiLower = asciiBytes lower

theorem colon_not_tchar : isTchar 0x3a = false := by decide

theorem colon_not_mem {name : List UInt8} (h : ∀ b ∈ name, isTchar b) : 0x3a ∉ name := by
  intro hmem
  have := h _ hmem
  rw [colon_not_tchar] at this
  cases this

end Cloak
