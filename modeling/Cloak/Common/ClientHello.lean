import Cloak.Common.Random
import Cloak.Lib.BigEndian
import Cloak.Lib.Slice
import Mathlib.Algebra.Order.Ring.Int

set_option autoImplicit false

/-! # The ClientHello builder (`clienthello.c`)

A template is the ClientHello of a browser, byte for byte, with the offsets of what is not the same
in every handshake. `cloak_clienthello_build` copies it around the server name, overwrites the fields
at their offsets and repairs the lengths the changes affect. Offsets behind the placeholder name are
shifted by the difference of the names.

What is drawn at random is an argument: a stream of bytes for each call of `cloak_random_bytes`, a
key for each key generation, or its failure. -/

namespace Cloak

open Lib

/-- `cloak_clienthello_region_kind_t`. -/
inductive RegionKind where
  | random
  | x25519
deriving DecidableEq, Repr

/-- `cloak_clienthello_region_t`. -/
structure HelloRegion where
  off : Nat
  len : Nat
  kind : RegionKind
deriving DecidableEq, Repr

/-- `cloak_clienthello_grease_role_t`. -/
inductive GreaseRole where
  | cipher
  | group
  | ext1
  | ext2
  | version
deriving DecidableEq, Repr

/-- `cloak_clienthello_template_t`. The lists hold the entries that count; an offset of 0 is a field
    the template does not have. -/
structure HelloTemplate where
  bytes : List UInt8
  randomOff : Nat
  sessionIdOff : Nat
  keyshareOff : Nat
  extensionsLengthOff : Nat
  sniExtLengthOff : Nat
  sniListLengthOff : Nat
  sniHostLengthOff : Nat
  sniHostOff : Nat
  sniHostLen : Nat
  randomRegions : List HelloRegion
  secp256r1KeyshareOff : Nat
  mlkemEkOff : Nat
  aeadIdOff : Nat
  aeadIdChoices : Nat × Nat
  echExtLenOff : Nat
  echPayloadLenOff : Nat
  echPayloadOff : Nat
  echPayloadCandidateLens : List Nat
  paddingExtOff : Nat
  paddingDataLen : Nat
  greasePositions : List (Nat × GreaseRole)

/-! ## The templates -/

/-- `chrome_template`. -/
def chromeTemplate : List UInt8 := [
  0x01, 0x00, 0x06, 0xb4, 0x03, 0x03, 0x00, 0x01, 0x02, 0x03, 0x04, 0x05, 0x06, 0x07, 0x08, 0x09,
  0x0a, 0x0b, 0x0c, 0x0d, 0x0e, 0x0f, 0x10, 0x11, 0x12, 0x13, 0x14, 0x15, 0x16, 0x17, 0x18, 0x19,
  0x1a, 0x1b, 0x1c, 0x1d, 0x1e, 0x1f, 0x20, 0x40, 0x41, 0x42, 0x43, 0x44, 0x45, 0x46, 0x47, 0x48,
  0x49, 0x4a, 0x4b, 0x4c, 0x4d, 0x4e, 0x4f, 0x50, 0x51, 0x52, 0x53, 0x54, 0x55, 0x56, 0x57, 0x58,
  0x59, 0x5a, 0x5b, 0x5c, 0x5d, 0x5e, 0x5f, 0x00, 0x20, 0xfa, 0xfa, 0x13, 0x01, 0x13, 0x02, 0x13,
  0x03, 0xc0, 0x2b, 0xc0, 0x2f, 0xc0, 0x2c, 0xc0, 0x30, 0xcc, 0xa9, 0xcc, 0xa8, 0xc0, 0x13, 0xc0,
  0x14, 0x00, 0x9c, 0x00, 0x9d, 0x00, 0x2f, 0x00, 0x35, 0x01, 0x00, 0x06, 0x4b, 0xfa, 0xfa, 0x00,
  0x00, 0x00, 0x00, 0x00, 0x14, 0x00, 0x12, 0x00, 0x00, 0x0f, 0x77, 0x77, 0x77, 0x2e, 0x65, 0x78,
  0x61, 0x6d, 0x70, 0x6c, 0x65, 0x2e, 0x63, 0x6f, 0x6d, 0x00, 0x05, 0x00, 0x05, 0x01, 0x00, 0x00,
  0x00, 0x00, 0xff, 0x01, 0x00, 0x01, 0x00, 0x00, 0x1b, 0x00, 0x03, 0x02, 0x00, 0x02, 0x00, 0x10,
  0x00, 0x0e, 0x00, 0x0c, 0x02, 0x68, 0x32, 0x08, 0x68, 0x74, 0x74, 0x70, 0x2f, 0x31, 0x2e, 0x31,
  0x44, 0xcd, 0x00, 0x05, 0x00, 0x03, 0x02, 0x68, 0x32, 0x00, 0x17, 0x00, 0x00, 0x00, 0x33, 0x04,
  0xef, 0x04, 0xed, 0xaa, 0xaa, 0x00, 0x01, 0x00, 0x11, 0xec, 0x04, 0xc0, 0x68, 0x3b, 0x74, 0x21,
  0x51, 0x0e, 0x4b, 0xf7, 0xa4, 0x76, 0x10, 0x9e, 0xcd, 0x93, 0x95, 0x5d, 0x31, 0x74, 0x4c, 0x50,
  0xbe, 0x76, 0x84, 0x17, 0x52, 0xf8, 0x42, 0xf9, 0x72, 0x27, 0xaf, 0x61, 0x2e, 0x80, 0x66, 0xa3,
  0xd7, 0xf9, 0x1d, 0x89, 0xf4, 0x4e, 0xe3, 0xc9, 0x24, 0x2e, 0x85, 0x65, 0x23, 0x33, 0xca, 0x98,
  0x7c, 0x28, 0xcc, 0x84, 0x48, 0x72, 0xf9, 0x17, 0x9c, 0x46, 0x30, 0x2d, 0x2a, 0xad, 0x0e, 0xba,
  0x53, 0x0a, 0xf2, 0x02, 0x0c, 0xbb, 0x0d, 0xf0, 0x33, 0x39, 0xa1, 0xd3, 0x4c, 0x50, 0x9a, 0xca,
  0x6a, 0x49, 0xbd, 0xd8, 0x8a, 0x14, 0xaa, 0xdc, 0x48, 0xdb, 0xd0, 0x60, 0x5b, 0xda, 0x67, 0xb6,
  0xfc, 0x7c, 0x47, 0x57, 0x0b, 0xcf, 0xba, 0x84, 0xc6, 0x86, 0x80, 0x43, 0xf2, 0x75, 0x44, 0x63,
  0x47, 0xac, 0x75, 0x4c, 0x2f, 0xc7, 0x05, 0xdd, 0x01, 0xaa, 0x72, 0x7c, 0x53, 0xe3, 0xb6, 0x42,
  0x61, 0x9a, 0x5c, 0x93, 0x88, 0xa1, 0xe1, 0x73, 0x34, 0xe1, 0x95, 0xc2, 0xb6, 0xa2, 0x8e, 0x89,
  0x21, 0x37, 0xfb, 0xe8, 0x29, 0xfe, 0x45, 0xc1, 0x99, 0xb5, 0xa1, 0xb4, 0x24, 0x62, 0x61, 0x02,
  0x58, 0xe8, 0xa6, 0x90, 0x99, 0x64, 0xa4, 0x04, 0xd5, 0x40, 0xe5, 0x51, 0xbc, 0x53, 0x58, 0xa5,
  0xdf, 0x23, 0xb8, 0xb9, 0x81, 0xc1, 0x69, 0x59, 0x83, 0x02, 0x8b, 0x91, 0xda, 0x59, 0x40, 0x5b,
  0x28, 0x18, 0x44, 0x69, 0x65, 0xe1, 0x65, 0x0b, 0x37, 0xf3, 0x19, 0x0a, 0xe2, 0x1a, 0x4e, 0x01,
  0xa6, 0x14, 0x7a, 0x51, 0xb2, 0xfc, 0xc0, 0x83, 0xf4, 0xc2, 0x27, 0xe7, 0x96, 0x21, 0x56, 0xad,
  0x07, 0xaa, 0x21, 0xfe, 0x29, 0x91, 0xb7, 0xc7, 0x19, 0x48, 0x59, 0x51, 0x43, 0x10, 0x24, 0xa5,
  0xbc, 0x17, 0xd1, 0xd3, 0x8e, 0x76, 0xb1, 0xbf, 0x1b, 0xc9, 0xa6, 0x50, 0x8a, 0x22, 0x88, 0x36,
  0xc0, 0x2b, 0xd1, 0x7c, 0xad, 0x07, 0xac, 0xb1, 0x30, 0x07, 0x9e, 0x73, 0x62, 0x46, 0xc1, 0x3d,
  0xce, 0xb1, 0x55, 0x69, 0x73, 0x97, 0xec, 0x34, 0x46, 0x7c, 0x11, 0x0b, 0x97, 0xd0, 0xa2, 0x07,
  0x4a, 0x18, 0x8a, 0x4c, 0xc0, 0xd9, 0x56, 0x6c, 0xe7, 0xbc, 0x8c, 0x7b, 0x38, 0x26, 0x89, 0x54,
  0x82, 0x1a, 0x68, 0x4e, 0xa2, 0xc8, 0x0e, 0x07, 0x35, 0x10, 0x81, 0xd5, 0xce, 0x64, 0x29, 0x58,
  0x97, 0xab, 0x3f, 0x2d, 0x23, 0xcd, 0x89, 0xac, 0xc4, 0x37, 0xd4, 0x97, 0x94, 0x51, 0x79, 0x7f,
  0xbb, 0x1f, 0xb4, 0x48, 0x46, 0x27, 0xa0, 0xcc, 0xde, 0x60, 0x86, 0x8e, 0x16, 0x8f, 0xb6, 0xf6,
  0x9c, 0x59, 0x5c, 0xc2, 0x57, 0xd1, 0x54, 0xda, 0xea, 0xa8, 0xa4, 0x72, 0x61, 0xc4, 0x77, 0x13,
  0x6f, 0x3c, 0x69, 0xcc, 0x76, 0xb4, 0x08, 0x60, 0x9e, 0x14, 0x10, 0x2c, 0xb5, 0x4a, 0xa0, 0x4c,
  0xa9, 0x2b, 0xba, 0x6b, 0x2f, 0x5b, 0x72, 0x94, 0xbf, 0x02, 0x7a, 0x60, 0xcb, 0xad, 0x87, 0x7c,
  0x7d, 0x43, 0xa5, 0x94, 0xa7, 0x15, 0x27, 0x75, 0x50, 0x7b, 0x57, 0xf4, 0x38, 0xbf, 0xc2, 0xce,
  0x1c, 0xd3, 0xb5, 0x15, 0x71, 0x61, 0xfe, 0x46, 0x2e, 0x11, 0xf3, 0xb7, 0x56, 0x5a, 0x81, 0x4a,
  0x73, 0x70, 0x32, 0x25, 0x2b, 0x79, 0x9c, 0x78, 0x68, 0xd7, 0x0a, 0xbc, 0xe2, 0x5e, 0xf8, 0x9c,
  0x57, 0x7b, 0x48, 0x35, 0x84, 0x1a, 0x36, 0xef, 0x74, 0x75, 0xbf, 0xec, 0x2c, 0x03, 0x6c, 0xc2,
  0x59, 0x25, 0x4f, 0xe7, 0x23, 0x54, 0xe4, 0x16, 0x17, 0x95, 0x37, 0x38, 0x98, 0x2c, 0x81, 0xab,
  0x02, 0x22, 0xa4, 0x48, 0x50, 0x54, 0x9c, 0x1c, 0x82, 0x68, 0xc2, 0xcc, 0x88, 0x29, 0xf5, 0x85,
  0x24, 0x9e, 0xb1, 0x28, 0x36, 0x64, 0x1d, 0xab, 0xa9, 0xc0, 0xd5, 0x9a, 0xb1, 0x22, 0xe5, 0x72,
  0xbe, 0xa0, 0x9c, 0x79, 0x34, 0x8d, 0x2f, 0x27, 0xbc, 0x3c, 0x41, 0x0a, 0x04, 0x15, 0x46, 0x6a,
  0x96, 0x4b, 0xaa, 0xc3, 0x0f, 0x12, 0xe4, 0x4a, 0xa2, 0x99, 0x1d, 0x40, 0x0b, 0x1f, 0x5d, 0xcc,
  0x18, 0xc3, 0x3b, 0x61, 0x7a, 0x16, 0x40, 0x12, 0x46, 0x95, 0xa4, 0x36, 0x84, 0x6b, 0xfc, 0x57,
  0xf0, 0xc9, 0xbd, 0xfe, 0x73, 0x15, 0x79, 0x56, 0x93, 0x0f, 0x18, 0x56, 0x36, 0x69, 0x16, 0x92,
  0x67, 0xb7, 0x87, 0x33, 0x6a, 0xca, 0xd6, 0x17, 0x5e, 0x11, 0xa0, 0xe9, 0x6a, 0x39, 0x61, 0xda,
  0x06, 0xcf, 0x04, 0x62, 0xb7, 0x8b, 0x95, 0xda, 0x7a, 0x3c, 0xd4, 0xe5, 0x5f, 0xbb, 0x00, 0x74,
  0x20, 0x05, 0xb7, 0x2a, 0x28, 0x98, 0xc1, 0xa4, 0x81, 0x77, 0x59, 0x37, 0x5c, 0x51, 0x21, 0x09,
  0x85, 0x18, 0xe9, 0x32, 0x04, 0x19, 0xb7, 0xcd, 0xd8, 0x27, 0x3f, 0xe2, 0x8a, 0x2f, 0x70, 0x15,
  0x49, 0x0e, 0x64, 0x1c, 0xd0, 0xe7, 0x08, 0xae, 0x8a, 0x07, 0xc8, 0x84, 0xa2, 0xaf, 0x3a, 0x6d,
  0xf1, 0x75, 0x6e, 0x79, 0x2a, 0x73, 0x00, 0xda, 0x22, 0x2b, 0x5b, 0x2d, 0x04, 0xd3, 0x23, 0xcc,
  0x22, 0x43, 0xa0, 0x32, 0xbf, 0x86, 0x71, 0x89, 0x27, 0xf1, 0x40, 0x43, 0x26, 0x3c, 0x97, 0x25,
  0x66, 0x2b, 0x6a, 0xa0, 0x42, 0x84, 0xcc, 0x65, 0xe7, 0x3f, 0x72, 0xcc, 0x67, 0x93, 0xb2, 0xaf,
  0x31, 0xe8, 0x56, 0x52, 0x47, 0x29, 0x4b, 0x68, 0x0b, 0x1a, 0x4c, 0x05, 0x8d, 0xa5, 0x98, 0xc9,
  0xe2, 0x55, 0x89, 0x19, 0x23, 0xd5, 0xb4, 0x87, 0x81, 0x1c, 0x0f, 0x33, 0x79, 0x25, 0x9f, 0xc4,
  0x77, 0x4e, 0x39, 0xa5, 0xd1, 0xb1, 0xc2, 0x5c, 0x35, 0x63, 0xcd, 0x54, 0x4e, 0x4b, 0xda, 0x47,
  0x01, 0x99, 0x54, 0x28, 0x50, 0x81, 0xe3, 0x30, 0x6e, 0x6c, 0xc9, 0x11, 0x43, 0x57, 0xa6, 0xe4,
  0x30, 0x80, 0x56, 0x54, 0x9e, 0x2d, 0xe7, 0xce, 0x9b, 0xcb, 0xb5, 0xe2, 0xe2, 0x77, 0x71, 0x8b,
  0x8a, 0x85, 0xb9, 0x6e, 0x07, 0x79, 0x3e, 0x0a, 0xb0, 0x13, 0x94, 0xc9, 0x24, 0xef, 0x54, 0x7d,
  0x33, 0x26, 0x51, 0xfb, 0x01, 0x9a, 0x05, 0x46, 0x35, 0x4d, 0xf0, 0xcb, 0xd8, 0x96, 0x89, 0x66,
  0xc5, 0x58, 0x1e, 0x5b, 0xcb, 0x06, 0x3b, 0x90, 0x2b, 0xa3, 0xb6, 0x21, 0x31, 0x1e, 0x2d, 0x7a,
  0x70, 0x14, 0xab, 0x79, 0xa4, 0x88, 0x2f, 0x67, 0xb6, 0x9f, 0x1e, 0xb3, 0x8d, 0xa9, 0x0a, 0x38,
  0xd3, 0xf2, 0x21, 0x9a, 0xa2, 0x4a, 0x31, 0xc4, 0x42, 0x93, 0x1a, 0x2e, 0xb6, 0xe9, 0x58, 0x06,
  0xab, 0x56, 0xea, 0x58, 0x48, 0x2e, 0xc8, 0x71, 0x54, 0x46, 0x9f, 0x40, 0x08, 0x30, 0xed, 0xab,
  0x67, 0x46, 0xb1, 0x6e, 0x92, 0x02, 0x3f, 0xd2, 0x92, 0xb8, 0x46, 0x0c, 0x7b, 0x50, 0x61, 0xa5,
  0xae, 0x12, 0x88, 0x66, 0xe1, 0x46, 0x40, 0x19, 0x5c, 0x4e, 0x40, 0x7e, 0xa9, 0x90, 0x50, 0x1f,
  0xd1, 0xb5, 0xd4, 0x3c, 0x02, 0xff, 0x83, 0x62, 0x61, 0xd7, 0x4d, 0xfb, 0x12, 0x5f, 0x1f, 0x93,
  0x53, 0x58, 0xd5, 0x71, 0x9c, 0xb5, 0x7c, 0x81, 0x33, 0xb4, 0xde, 0x10, 0x6b, 0xb8, 0xf2, 0x30,
  0xb8, 0x6a, 0x34, 0x8a, 0x92, 0x66, 0x84, 0xe8, 0x0a, 0x77, 0x1a, 0x00, 0x66, 0x1b, 0x48, 0x62,
  0x75, 0x86, 0x3a, 0xfb, 0x7c, 0x6c, 0x3c, 0x10, 0x46, 0xb1, 0x42, 0x26, 0x69, 0x8e, 0xfd, 0xe8,
  0x13, 0xbd, 0x1c, 0x81, 0x6a, 0x32, 0xcf, 0x1b, 0x58, 0x25, 0x58, 0x45, 0x0a, 0x18, 0x60, 0x77,
  0x82, 0xb2, 0x5f, 0x2c, 0xb6, 0xa4, 0xff, 0x9b, 0xa6, 0x60, 0xa9, 0x8d, 0xbe, 0xa9, 0xb3, 0x76,
  0x32, 0xb2, 0xcc, 0x00, 0xcb, 0x67, 0xdb, 0x20, 0x0b, 0xa3, 0x9a, 0xb6, 0xb1, 0x99, 0x73, 0x37,
  0xc0, 0xc7, 0x94, 0x1c, 0x18, 0x98, 0x50, 0xd1, 0x6c, 0x09, 0xa0, 0x40, 0x9f, 0xb8, 0xd7, 0x66,
  0xf7, 0xf0, 0x14, 0x1e, 0x04, 0x94, 0xa3, 0x90, 0x7c, 0xc5, 0xd7, 0x92, 0x34, 0xa2, 0xab, 0xd0,
  0xf4, 0x35, 0x40, 0x68, 0x54, 0xf1, 0x82, 0x46, 0x3a, 0x4b, 0x2d, 0xd3, 0xf7, 0x1c, 0xe2, 0x7a,
  0x4f, 0x3e, 0x65, 0xc3, 0x18, 0x72, 0x3f, 0x01, 0xe9, 0x71, 0xb0, 0x45, 0x63, 0x87, 0x36, 0xa0,
  0xb1, 0x99, 0x81, 0x80, 0xd2, 0x0a, 0xd8, 0x82, 0x95, 0x39, 0x14, 0xc9, 0x4a, 0x65, 0x55, 0xf9,
  0x04, 0x51, 0x08, 0x77, 0x7a, 0x63, 0x88, 0xa4, 0x21, 0x8a, 0x8c, 0x8f, 0x4b, 0x6e, 0xb2, 0xd5,
  0x48, 0x89, 0x67, 0x3c, 0x99, 0xa2, 0xb3, 0xa4, 0x2c, 0x91, 0x4a, 0x52, 0x92, 0xba, 0x0c, 0x68,
  0x15, 0x7b, 0x45, 0x8b, 0xdc, 0x7e, 0x0d, 0x74, 0x2a, 0x92, 0xa0, 0x2d, 0xcc, 0xb0, 0x77, 0x1a,
  0x78, 0xbc, 0x4f, 0xf4, 0x1d, 0x10, 0x0c, 0x57, 0xbb, 0xbc, 0x0a, 0x5d, 0xfd, 0x1d, 0x23, 0x9d,
  0x7a, 0x42, 0x9d, 0xab, 0x49, 0xad, 0xba, 0x76, 0x46, 0x45, 0xc0, 0x8b, 0x86, 0x8f, 0x5f, 0x5c,
  0xf6, 0xf7, 0x40, 0xf3, 0x73, 0xe8, 0xc7, 0xaa, 0xe5, 0x2e, 0x6c, 0x74, 0x8e, 0xe9, 0x9a, 0x3f,
  0x3b, 0x11, 0x8b, 0x83, 0x1f, 0xd8, 0xb0, 0x26, 0x4b, 0x17, 0x4f, 0x1f, 0x00, 0x1d, 0x00, 0x20,
  0x80, 0x81, 0x82, 0x83, 0x84, 0x85, 0x86, 0x87, 0x88, 0x89, 0x8a, 0x8b, 0x8c, 0x8d, 0x8e, 0x8f,
  0x90, 0x91, 0x92, 0x93, 0x94, 0x95, 0x96, 0x97, 0x98, 0x99, 0x9a, 0x9b, 0x9c, 0x9d, 0x9e, 0x9f,
  0x00, 0x0b, 0x00, 0x02, 0x01, 0x00, 0x00, 0x23, 0x00, 0x00, 0x00, 0x2d, 0x00, 0x02, 0x01, 0x01,
  0x00, 0x0a, 0x00, 0x0c, 0x00, 0x0a, 0xaa, 0xaa, 0x11, 0xec, 0x00, 0x1d, 0x00, 0x17, 0x00, 0x18,
  0x00, 0x2b, 0x00, 0x07, 0x06, 0xfa, 0xfa, 0x03, 0x04, 0x03, 0x03, 0x00, 0x0d, 0x00, 0x12, 0x00,
  0x10, 0x04, 0x03, 0x08, 0x04, 0x04, 0x01, 0x05, 0x03, 0x08, 0x05, 0x05, 0x01, 0x08, 0x06, 0x06,
  0x01, 0xfe, 0x0d, 0x00, 0xba, 0x00, 0x00, 0x01, 0x00, 0x03, 0x63, 0x00, 0x20, 0x96, 0x80, 0xde,
  0xcd, 0x18, 0x17, 0xc9, 0xed, 0x0e, 0xa2, 0xe6, 0x00, 0xbd, 0x95, 0xb4, 0x8d, 0x25, 0xfa, 0x8f,
  0x64, 0xb5, 0x46, 0xa9, 0xd3, 0xa1, 0x95, 0x7b, 0xad, 0x05, 0xb0, 0x92, 0x7f, 0x00, 0x90, 0xa3,
  0x43, 0xab, 0x13, 0x14, 0xe1, 0x95, 0x1b, 0xb5, 0x9a, 0x43, 0xe5, 0x20, 0xdf, 0x88, 0x53, 0x69,
  0x4b, 0x5c, 0x98, 0xa8, 0x78, 0x4f, 0x86, 0x43, 0x6b, 0x00, 0x0a, 0xf2, 0xb1, 0x17, 0x22, 0x58,
  0x84, 0x1f, 0xd6, 0x8c, 0x69, 0xfc, 0xae, 0x60, 0x41, 0xcf, 0x6b, 0xe0, 0x72, 0xb1, 0xd6, 0x98,
  0xc8, 0x9d, 0x52, 0xa6, 0xf9, 0x01, 0xe1, 0x7d, 0xf0, 0x94, 0x52, 0xec, 0x78, 0x3d, 0x07, 0xf2,
  0xe3, 0x3e, 0x2c, 0x55, 0x0c, 0xad, 0xce, 0x7c, 0x7c, 0x4f, 0x74, 0x36, 0x1a, 0xf6, 0x5e, 0xc6,
  0xf7, 0xbe, 0xfb, 0x43, 0x8f, 0x3e, 0x77, 0xb0, 0x3c, 0x9c, 0xd2, 0x99, 0x2b, 0x65, 0x8d, 0x6d,
  0xe8, 0x82, 0xaf, 0x04, 0x30, 0x23, 0x4b, 0xc7, 0xbc, 0x96, 0x5d, 0x75, 0x1b, 0x57, 0x1a, 0x9f,
  0x55, 0xd2, 0xe3, 0x9d, 0x5e, 0x24, 0xb0, 0x3c, 0x5f, 0x53, 0xbe, 0x8f, 0x83, 0x6a, 0x46, 0x16,
  0x03, 0xb8, 0x76, 0x36, 0xea, 0xd9, 0x46, 0x37, 0x3a, 0x3e, 0x20, 0xe7, 0xf6, 0xe6, 0xe8, 0x00,
  0x12, 0x00, 0x00, 0x2a, 0x2a, 0x00, 0x01, 0x00]

/-- `cloak_clienthello_chrome`. -/
def clienthelloChrome : HelloTemplate where
  bytes := chromeTemplate
  randomOff := 6
  sessionIdOff := 39
  keyshareOff := 1424
  extensionsLengthOff := 107
  sniExtLengthOff := 115
  sniListLengthOff := 117
  sniHostLengthOff := 120
  sniHostOff := 122
  sniHostLen := 15
  randomRegions := [⟨1388, 32, .x25519⟩, ⟨1533, 32, .x25519⟩, ⟨1530, 1, .random⟩]
  secp256r1KeyshareOff := 0
  mlkemEkOff := 204
  aeadIdOff := 1528
  aeadIdChoices := (0x0001, 0x0003)
  echExtLenOff := 1523
  echPayloadLenOff := 1565
  echPayloadOff := 1567
  echPayloadCandidateLens := [144, 176, 208, 240]
  paddingExtOff := 0
  paddingDataLen := 0
  greasePositions := [(73, .cipher), (109, .ext1), (195, .group), (1478, .group), (1493, .version),
    (1715, .ext2)]

/-- `firefox_template`. -/
def firefoxTemplate : List UInt8 := [
  0x01, 0x00, 0x02, 0x8e, 0x03, 0x03, 0x00, 0x01, 0x02, 0x03, 0x04, 0x05, 0x06, 0x07, 0x08, 0x09,
  0x0a, 0x0b, 0x0c, 0x0d, 0x0e, 0x0f, 0x10, 0x11, 0x12, 0x13, 0x14, 0x15, 0x16, 0x17, 0x18, 0x19,
  0x1a, 0x1b, 0x1c, 0x1d, 0x1e, 0x1f, 0x20, 0x40, 0x41, 0x42, 0x43, 0x44, 0x45, 0x46, 0x47, 0x48,
  0x49, 0x4a, 0x4b, 0x4c, 0x4d, 0x4e, 0x4f, 0x50, 0x51, 0x52, 0x53, 0x54, 0x55, 0x56, 0x57, 0x58,
  0x59, 0x5a, 0x5b, 0x5c, 0x5d, 0x5e, 0x5f, 0x00, 0x22, 0x13, 0x01, 0x13, 0x03, 0x13, 0x02, 0xc0,
  0x2b, 0xc0, 0x2f, 0xcc, 0xa9, 0xcc, 0xa8, 0xc0, 0x2c, 0xc0, 0x30, 0xc0, 0x0a, 0xc0, 0x09, 0xc0,
  0x13, 0xc0, 0x14, 0x00, 0x9c, 0x00, 0x9d, 0x00, 0x2f, 0x00, 0x35, 0x01, 0x00, 0x02, 0x23, 0x00,
  0x00, 0x00, 0x14, 0x00, 0x12, 0x00, 0x00, 0x0f, 0x77, 0x77, 0x77, 0x2e, 0x65, 0x78, 0x61, 0x6d,
  0x70, 0x6c, 0x65, 0x2e, 0x63, 0x6f, 0x6d, 0x00, 0x17, 0x00, 0x00, 0xff, 0x01, 0x00, 0x01, 0x00,
  0x00, 0x0a, 0x00, 0x0e, 0x00, 0x0c, 0x00, 0x1d, 0x00, 0x17, 0x00, 0x18, 0x00, 0x19, 0x01, 0x00,
  0x01, 0x01, 0x00, 0x0b, 0x00, 0x02, 0x01, 0x00, 0x00, 0x23, 0x00, 0x00, 0x00, 0x10, 0x00, 0x0e,
  0x00, 0x0c, 0x02, 0x68, 0x32, 0x08, 0x68, 0x74, 0x74, 0x70, 0x2f, 0x31, 0x2e, 0x31, 0x00, 0x05,
  0x00, 0x05, 0x01, 0x00, 0x00, 0x00, 0x00, 0x00, 0x22, 0x00, 0x0a, 0x00, 0x08, 0x04, 0x03, 0x05,
  0x03, 0x06, 0x03, 0x02, 0x03, 0x00, 0x33, 0x00, 0x6b, 0x00, 0x69, 0x00, 0x1d, 0x00, 0x20, 0x80,
  0x81, 0x82, 0x83, 0x84, 0x85, 0x86, 0x87, 0x88, 0x89, 0x8a, 0x8b, 0x8c, 0x8d, 0x8e, 0x8f, 0x90,
  0x91, 0x92, 0x93, 0x94, 0x95, 0x96, 0x97, 0x98, 0x99, 0x9a, 0x9b, 0x9c, 0x9d, 0x9e, 0x9f, 0x00,
  0x17, 0x00, 0x41, 0x04, 0xe7, 0x9c, 0x5b, 0xad, 0xd1, 0x12, 0xce, 0x3f, 0xed, 0x25, 0x12, 0x6a,
  0x41, 0xc2, 0x0e, 0x26, 0xca, 0x08, 0xcf, 0xbd, 0x38, 0x75, 0x25, 0x14, 0x70, 0x5b, 0x33, 0xa6,
  0x02, 0x10, 0x33, 0x89, 0xf9, 0x9a, 0xa1, 0x90, 0xa7, 0xce, 0xde, 0xab, 0x47, 0x54, 0x15, 0xa5,
  0x63, 0x0e, 0x7e, 0x6c, 0xbd, 0xaa, 0xf9, 0xd7, 0x3f, 0x63, 0xd8, 0x07, 0x50, 0x8a, 0xbf, 0x77,
  0xfd, 0x69, 0x46, 0xc5, 0x00, 0x2b, 0x00, 0x05, 0x04, 0x03, 0x04, 0x03, 0x03, 0x00, 0x0d, 0x00,
  0x18, 0x00, 0x16, 0x04, 0x03, 0x05, 0x03, 0x06, 0x03, 0x08, 0x04, 0x08, 0x05, 0x08, 0x06, 0x04,
  0x01, 0x05, 0x01, 0x06, 0x01, 0x02, 0x03, 0x02, 0x01, 0x00, 0x2d, 0x00, 0x02, 0x01, 0x01, 0x00,
  0x1c, 0x00, 0x02, 0x40, 0x01, 0xfe, 0x0d, 0x01, 0x19, 0x00, 0x00, 0x01, 0x00, 0x01, 0x37, 0x00,
  0x20, 0x19, 0x49, 0xe8, 0x15, 0x38, 0x66, 0xb8, 0x6c, 0x03, 0xb2, 0x02, 0xb8, 0x39, 0xa3, 0xe5,
  0x55, 0xd9, 0x7d, 0x3a, 0xb5, 0x5a, 0x49, 0xa7, 0x14, 0x39, 0xb2, 0xd4, 0xe8, 0x43, 0x98, 0xb9,
  0x70, 0x00, 0xef, 0x62, 0x12, 0x5c, 0x1b, 0xa6, 0xfc, 0x0d, 0x27, 0xf8, 0x78, 0xa5, 0x46, 0x4a,
  0x70, 0x18, 0x3b, 0xb7, 0x91, 0x45, 0x19, 0x31, 0x58, 0xc2, 0x3c, 0x6b, 0xaf, 0x48, 0x02, 0x0f,
  0x37, 0x2d, 0xa3, 0x13, 0xed, 0x75, 0xda, 0xd7, 0xf5, 0x03, 0x3d, 0xf7, 0x03, 0xf4, 0x93, 0xaa,
  0x5a, 0x82, 0x2f, 0x10, 0xb8, 0x63, 0xbf, 0xbd, 0x0a, 0x4c, 0x43, 0x6e, 0xe0, 0x7c, 0xb9, 0xa2,
  0xf6, 0xd8, 0x3b, 0x13, 0x23, 0x03, 0x3c, 0x8a, 0x2b, 0xa8, 0x9b, 0xc8, 0x9a, 0xaa, 0xca, 0x3c,
  0xaa, 0x7e, 0x1e, 0xe2, 0xd3, 0x60, 0xb2, 0xc6, 0x26, 0x32, 0x23, 0x1d, 0x78, 0xba, 0x35, 0x34,
  0x2e, 0x87, 0x7a, 0xf1, 0x9d, 0x26, 0xd8, 0x29, 0x86, 0xde, 0xd8, 0xbe, 0x3a, 0x24, 0x64, 0x66,
  0x23, 0xfd, 0xa8, 0x12, 0x71, 0x01, 0x43, 0xf8, 0xc3, 0x4b, 0x24, 0xf4, 0x00, 0x1a, 0x68, 0xd1,
  0x7c, 0x90, 0x92, 0x99, 0xd6, 0x30, 0x21, 0xe0, 0x51, 0x7f, 0x08, 0x7f, 0x1e, 0x3f, 0xb7, 0x4f,
  0xba, 0x43, 0xf3, 0xef, 0x51, 0xdd, 0x69, 0x8d, 0x8b, 0x49, 0x5f, 0x75, 0x63, 0x3b, 0x81, 0xfa,
  0x54, 0xd9, 0xd5, 0x86, 0x0b, 0xe5, 0xc7, 0x66, 0x38, 0x41, 0xc7, 0x60, 0xef, 0x7e, 0xb0, 0xc6,
  0x3a, 0xc2, 0xc9, 0xab, 0x40, 0x22, 0x29, 0xa2, 0x0d, 0x98, 0x21, 0x20, 0xd7, 0x47, 0xa9, 0x94,
  0xe2, 0x74, 0xb9, 0x67, 0xf6, 0xfe, 0x35, 0xce, 0xaf, 0x83, 0x5c, 0xfe, 0x1b, 0xcf, 0x80, 0x06,
  0xf6, 0xba, 0xe3, 0x89, 0x1b, 0xe9, 0x8a, 0x7b, 0x20, 0x6d, 0x94, 0x8a, 0xb0, 0xd8, 0xbf, 0x70,
  0xef, 0x8d, 0x3b, 0x98, 0x71, 0xc1, 0x10, 0x13, 0x84, 0xdc, 0xb5, 0x58, 0x81, 0x6f, 0x18, 0x82,
  0x9a, 0xf2]

/-- `cloak_clienthello_firefox`. -/
def clienthelloFirefox : HelloTemplate where
  bytes := firefoxTemplate
  randomOff := 6
  sessionIdOff := 39
  keyshareOff := 223
  extensionsLengthOff := 109
  sniExtLengthOff := 113
  sniListLengthOff := 115
  sniHostLengthOff := 118
  sniHostOff := 120
  sniHostLen := 15
  randomRegions := [⟨385, 32, .x25519⟩, ⟨419, 239, .random⟩, ⟨382, 1, .random⟩]
  secp256r1KeyshareOff := 259
  mlkemEkOff := 0
  aeadIdOff := 380
  aeadIdChoices := (0x0001, 0x0003)
  echExtLenOff := 0
  echPayloadLenOff := 0
  echPayloadOff := 0
  echPayloadCandidateLens := []
  paddingExtOff := 0
  paddingDataLen := 0
  greasePositions := []

/-- `safari_template`. -/
def safariTemplate : List UInt8 := [
  0x01, 0x00, 0x01, 0xfc, 0x03, 0x03, 0x00, 0x01, 0x02, 0x03, 0x04, 0x05, 0x06, 0x07, 0x08, 0x09,
  0x0a, 0x0b, 0x0c, 0x0d, 0x0e, 0x0f, 0x10, 0x11, 0x12, 0x13, 0x14, 0x15, 0x16, 0x17, 0x18, 0x19,
  0x1a, 0x1b, 0x1c, 0x1d, 0x1e, 0x1f, 0x20, 0x40, 0x41, 0x42, 0x43, 0x44, 0x45, 0x46, 0x47, 0x48,
  0x49, 0x4a, 0x4b, 0x4c, 0x4d, 0x4e, 0x4f, 0x50, 0x51, 0x52, 0x53, 0x54, 0x55, 0x56, 0x57, 0x58,
  0x59, 0x5a, 0x5b, 0x5c, 0x5d, 0x5e, 0x5f, 0x00, 0x2a, 0x2a, 0x2a, 0x13, 0x01, 0x13, 0x02, 0x13,
  0x03, 0xc0, 0x2c, 0xc0, 0x2b, 0xcc, 0xa9, 0xc0, 0x30, 0xc0, 0x2f, 0xcc, 0xa8, 0xc0, 0x0a, 0xc0,
  0x09, 0xc0, 0x14, 0xc0, 0x13, 0x00, 0x9d, 0x00, 0x9c, 0x00, 0x35, 0x00, 0x2f, 0xc0, 0x08, 0xc0,
  0x12, 0x00, 0x0a, 0x01, 0x00, 0x01, 0x89, 0x2a, 0x2a, 0x00, 0x00, 0x00, 0x00, 0x00, 0x14, 0x00,
  0x12, 0x00, 0x00, 0x0f, 0x77, 0x77, 0x77, 0x2e, 0x65, 0x78, 0x61, 0x6d, 0x70, 0x6c, 0x65, 0x2e,
  0x63, 0x6f, 0x6d, 0x00, 0x17, 0x00, 0x00, 0xff, 0x01, 0x00, 0x01, 0x00, 0x00, 0x0a, 0x00, 0x0c,
  0x00, 0x0a, 0x7a, 0x7a, 0x00, 0x1d, 0x00, 0x17, 0x00, 0x18, 0x00, 0x19, 0x00, 0x0b, 0x00, 0x02,
  0x01, 0x00, 0x00, 0x10, 0x00, 0x0e, 0x00, 0x0c, 0x02, 0x68, 0x32, 0x08, 0x68, 0x74, 0x74, 0x70,
  0x2f, 0x31, 0x2e, 0x31, 0x00, 0x05, 0x00, 0x05, 0x01, 0x00, 0x00, 0x00, 0x00, 0x00, 0x0d, 0x00,
  0x18, 0x00, 0x16, 0x04, 0x03, 0x08, 0x04, 0x04, 0x01, 0x05, 0x03, 0x02, 0x03, 0x08, 0x05, 0x08,
  0x05, 0x05, 0x01, 0x08, 0x06, 0x06, 0x01, 0x02, 0x01, 0x00, 0x12, 0x00, 0x00, 0x00, 0x33, 0x00,
  0x2b, 0x00, 0x29, 0x7a, 0x7a, 0x00, 0x01, 0x00, 0x00, 0x1d, 0x00, 0x20, 0x80, 0x81, 0x82, 0x83,
  0x84, 0x85, 0x86, 0x87, 0x88, 0x89, 0x8a, 0x8b, 0x8c, 0x8d, 0x8e, 0x8f, 0x90, 0x91, 0x92, 0x93,
  0x94, 0x95, 0x96, 0x97, 0x98, 0x99, 0x9a, 0x9b, 0x9c, 0x9d, 0x9e, 0x9f, 0x00, 0x2d, 0x00, 0x02,
  0x01, 0x01, 0x00, 0x2b, 0x00, 0x0b, 0x0a, 0x3a, 0x3a, 0x03, 0x04, 0x03, 0x03, 0x03, 0x02, 0x03,
  0x01, 0x00, 0x1b, 0x00, 0x03, 0x02, 0x00, 0x01, 0x1a, 0x1a, 0x00, 0x01, 0x00, 0x00, 0x15, 0x00,
  0xbf, 0x00, 0x00, 0x00, 0x00, 0x00, 0x00, 0x00, 0x00, 0x00, 0x00, 0x00, 0x00, 0x00, 0x00, 0x00,
  0x00, 0x00, 0x00, 0x00, 0x00, 0x00, 0x00, 0x00, 0x00, 0x00, 0x00, 0x00, 0x00, 0x00, 0x00, 0x00,
  0x00, 0x00, 0x00, 0x00, 0x00, 0x00, 0x00, 0x00, 0x00, 0x00, 0x00, 0x00, 0x00, 0x00, 0x00, 0x00,
  0x00, 0x00, 0x00, 0x00, 0x00, 0x00, 0x00, 0x00, 0x00, 0x00, 0x00, 0x00, 0x00, 0x00, 0x00, 0x00,
  0x00, 0x00, 0x00, 0x00, 0x00, 0x00, 0x00, 0x00, 0x00, 0x00, 0x00, 0x00, 0x00, 0x00, 0x00, 0x00,
  0x00, 0x00, 0x00, 0x00, 0x00, 0x00, 0x00, 0x00, 0x00, 0x00, 0x00, 0x00, 0x00, 0x00, 0x00, 0x00,
  0x00, 0x00, 0x00, 0x00, 0x00, 0x00, 0x00, 0x00, 0x00, 0x00, 0x00, 0x00, 0x00, 0x00, 0x00, 0x00,
  0x00, 0x00, 0x00, 0x00, 0x00, 0x00, 0x00, 0x00, 0x00, 0x00, 0x00, 0x00, 0x00, 0x00, 0x00, 0x00,
  0x00, 0x00, 0x00, 0x00, 0x00, 0x00, 0x00, 0x00, 0x00, 0x00, 0x00, 0x00, 0x00, 0x00, 0x00, 0x00,
  0x00, 0x00, 0x00, 0x00, 0x00, 0x00, 0x00, 0x00, 0x00, 0x00, 0x00, 0x00, 0x00, 0x00, 0x00, 0x00,
  0x00, 0x00, 0x00, 0x00, 0x00, 0x00, 0x00, 0x00, 0x00, 0x00, 0x00, 0x00, 0x00, 0x00, 0x00, 0x00,
  0x00, 0x00, 0x00, 0x00, 0x00, 0x00, 0x00, 0x00, 0x00, 0x00, 0x00, 0x00, 0x00, 0x00, 0x00, 0x00]

/-- `cloak_clienthello_safari`. -/
def clienthelloSafari : HelloTemplate where
  bytes := safariTemplate
  randomOff := 6
  sessionIdOff := 39
  keyshareOff := 252
  extensionsLengthOff := 117
  sniExtLengthOff := 125
  sniListLengthOff := 127
  sniHostLengthOff := 130
  sniHostOff := 132
  sniHostLen := 15
  randomRegions := []
  secp256r1KeyshareOff := 0
  mlkemEkOff := 0
  aeadIdOff := 0
  aeadIdChoices := (0, 0)
  echExtLenOff := 0
  echPayloadLenOff := 0
  echPayloadOff := 0
  echPayloadCandidateLens := []
  paddingExtOff := 317
  paddingDataLen := 191
  greasePositions := [(73, .cipher), (119, .ext1), (162, .group), (243, .group), (295, .version),
    (312, .ext2)]

/-! ## Draws -/

/-- What one build draws: the bytes or the fresh key of each random region, a point of the curve,
    the accepted coefficients and the seed of the encapsulation key, the byte that picks the AEAD, and
    the word that picks the length of the ECH payload, with its bytes. A failed key generation is
    `none`. -/
structure HelloDraws where
  regionBytes : Nat → Nat → UInt8
  regionKey : Nat → Option (Nat → UInt8)
  point : Option (Nat → UInt8)
  coefficients : Nat → Fin 3329
  seed : Nat → UInt8
  aead : UInt8
  echIndex : UInt32
  echPayload : Nat → UInt8

/-- `CLOAK_MLKEM768_EK_PACKED_LEN`. -/
def mlkem768EkPackedLen : Nat := 1152

/-- `CLOAK_MLKEM768_EK_SEED_LEN`. -/
def mlkem768EkSeedLen : Nat := 32

/-- Two coefficients, packed. -/
def packCoefficients (c0 c1 : Nat) : List UInt8 :=
  [UInt8.ofNat (c0 &&& 0xff), UInt8.ofNat (((c0 >>> 8) &&& 0x0f) ||| ((c1 &&& 0x0f) <<< 4)),
    UInt8.ofNat ((c1 >>> 4) &&& 0xff)]

/-- `fill_mlkem768_ek`, with the coefficients its rejection sampling accepts. -/
def fillMlkem768Ek (coefficients : Nat → Fin 3329) (seed : Nat → UInt8) : List UInt8 :=
  (List.range (mlkem768EkPackedLen / 3)).flatMap (fun i =>
    packCoefficients (coefficients (2 * i)) (coefficients (2 * i + 1))) ++
    randomBytes seed mlkem768EkSeedLen

/-- `store_be16`. -/
def storeBe16 (v : UInt16) : List UInt8 := [(v >>> 8).toUInt8, v.toUInt8]

/-- `cloak_clienthello_grease_value`. -/
def greaseByte (seed : GreaseRole → UInt8) (role : GreaseRole) : UInt16 :=
  (((seed role &&& 0xf0) ||| 0x0a).toUInt16 ||| (((seed role &&& 0xf0) ||| 0x0a).toUInt16 <<< 8))

def greaseValue (seed : GreaseRole → UInt8) (role : GreaseRole) : UInt16 :=
  if role = .ext2 ∧ greaseByte seed .ext2 = greaseByte seed .ext1 then
    greaseByte seed .ext2 ^^^ 0x1010
  else greaseByte seed role

/-! ## The builder -/

/-- `patch_be16_delta` and `patch_be24_delta`, for `n` bytes. -/
def patchBeDelta (n : Nat) (out : List UInt8) (off : Nat) (delta : Int) : List UInt8 :=
  patch out off (beBytes n (((beNat (slice out off n) : Int) + delta) % 256 ^ n).toNat)

def patchBe16Delta (out : List UInt8) (off : Nat) (delta : Int) : List UInt8 :=
  patchBeDelta 2 out off delta

def patchBe24Delta (out : List UInt8) (off : Nat) (delta : Int) : List UInt8 :=
  patchBeDelta 3 out off delta

/-- `store_be16` of a length. -/
def storeLen (len : Nat) : List UInt8 := beBytes 2 len

namespace HelloTemplate

variable (tmpl : HelloTemplate)

/-- `sni_delta`. -/
def sniDelta (name : List UInt8) : Int := (name.length : Int) - tmpl.sniHostLen

/-- `len_after_sni_shift`. -/
def lenAfterSniShift (name : List UInt8) : Int := (tmpl.bytes.length : Int) + tmpl.sniDelta name

/-- `new_pad_len`. -/
def newPadLen (name : List UInt8) : Nat :=
  if tmpl.paddingExtOff = 0 then 0
  else if tmpl.lenAfterSniShift name - (4 + tmpl.paddingDataLen) < 512 then
    (max (512 - (tmpl.lenAfterSniShift name - (4 + tmpl.paddingDataLen)) - 4) 1).toNat
  else 0

/-- `new_ext_total`. -/
def newExtTotal (name : List UInt8) : Nat :=
  if tmpl.newPadLen name = 0 then 0 else 4 + tmpl.newPadLen name

/-- `pad_delta`. -/
def padDelta (name : List UInt8) : Int :=
  if tmpl.paddingExtOff = 0 then 0 else (tmpl.newExtTotal name : Int) - (4 + tmpl.paddingDataLen)

/-- `chosen_ech_payload_len`. -/
def chosenEchPayloadLen (d : HelloDraws) : Nat :=
  tmpl.echPayloadCandidateLens.getD
    (randomBelow (UInt32.ofNat tmpl.echPayloadCandidateLens.length) d.echIndex).toNat 0

/-- The payload length of the template. -/
def baseEchPayloadLen : Nat := tmpl.echPayloadCandidateLens.getD 0 0

/-- `ech_payload_delta`. -/
def echPayloadDelta (d : HelloDraws) : Int :=
  if tmpl.echPayloadCandidateLens = [] then 0
  else (tmpl.chosenEchPayloadLen d : Int) - tmpl.baseEchPayloadLen

/-- `new_len`. -/
def newLen (name : List UInt8) (d : HelloDraws) : Int :=
  tmpl.lenAfterSniShift name + tmpl.padDelta name + tmpl.echPayloadDelta d

/-- `shift_off`. -/
def shiftOff (name : List UInt8) (off : Nat) : Nat :=
  if tmpl.sniHostOff < off then ((off : Int) + tmpl.sniDelta name).toNat else off

/-- The copies of phase 1. -/
def spliceSni (name : List UInt8) (out : List UInt8) : List UInt8 :=
  patch (patch (patch out 0 (tmpl.bytes.take tmpl.sniHostOff)) tmpl.sniHostOff name)
    (tmpl.sniHostOff + name.length) (tmpl.bytes.drop (tmpl.sniHostOff + tmpl.sniHostLen))

/-- The lengths of phase 1. -/
def patchSniLengths (name : List UInt8) (out : List UInt8) : List UInt8 :=
  patch
    (patchBe16Delta
      (patchBe16Delta
        (patchBe16Delta (patchBe24Delta out 1 (tmpl.sniDelta name)) tmpl.extensionsLengthOff
          (tmpl.sniDelta name))
        tmpl.sniExtLengthOff (tmpl.sniDelta name))
      tmpl.sniListLengthOff (tmpl.sniDelta name))
    tmpl.sniHostLengthOff (storeLen name.length)

/-- The caller's fields of phase 1. -/
def writeFields (random sessionId x25519KeyShare name : List UInt8) (out : List UInt8) : List UInt8 :=
  patch (patch (patch out tmpl.randomOff random) tmpl.sessionIdOff sessionId)
    ((tmpl.keyshareOff : Int) + tmpl.sniDelta name).toNat x25519KeyShare

/-- Phase 2, from region `i`. -/
def fillRegions (name : List UInt8) (d : HelloDraws) :
    (i : Nat) → List HelloRegion → List UInt8 → Option (List UInt8)
  | _, [], out => some out
  | i, region :: regions, out =>
    match region.kind with
    | .x25519 =>
      match d.regionKey i with
      | none => none
      | some key => fillRegions name d (i + 1) regions
          (patch out (tmpl.shiftOff name region.off) (randomBytes key 32))
    | .random => fillRegions name d (i + 1) regions
        (patch out (tmpl.shiftOff name region.off) (randomBytes (d.regionBytes i) region.len))

/-- Phase 3a. -/
def writePoint (name : List UInt8) (d : HelloDraws) (out : List UInt8) : Option (List UInt8) :=
  if tmpl.secp256r1KeyshareOff = 0 then some out
  else
    match d.point with
    | none => none
    | some point =>
      some (patch out (tmpl.shiftOff name tmpl.secp256r1KeyshareOff) (randomBytes point 65))

/-- Phase 3b. -/
def writeMlkem (name : List UInt8) (d : HelloDraws) (out : List UInt8) : List UInt8 :=
  if tmpl.mlkemEkOff = 0 then out
  else patch out (tmpl.shiftOff name tmpl.mlkemEkOff) (fillMlkem768Ek d.coefficients d.seed)

/-- `fill_aead_id_choice`. -/
def aeadIdChoice (d : HelloDraws) : Nat :=
  if d.aead &&& 1 = 0 then tmpl.aeadIdChoices.1 else tmpl.aeadIdChoices.2

/-- Phase 3c. -/
def writeAeadId (name : List UInt8) (d : HelloDraws) (out : List UInt8) : List UInt8 :=
  if tmpl.aeadIdOff = 0 then out
  else patch out (tmpl.shiftOff name tmpl.aeadIdOff) (storeLen (tmpl.aeadIdChoice d))

/-- Phase 3d. -/
def writeGrease (name : List UInt8) (seed : GreaseRole → UInt8) (out : List UInt8) : List UInt8 :=
  tmpl.greasePositions.foldl
    (fun out pos => patch out (tmpl.shiftOff name pos.1) (storeBe16 (greaseValue seed pos.2))) out

/-- Phase 4. -/
def resizePadding (name : List UInt8) (out : List UInt8) : List UInt8 :=
  if tmpl.paddingExtOff = 0 then out
  else
    let out := patchBe24Delta out 1 (tmpl.padDelta name)
    let out := patchBe16Delta out tmpl.extensionsLengthOff (tmpl.padDelta name)
    if tmpl.newPadLen name = 0 then out
    else
      let off := tmpl.shiftOff name tmpl.paddingExtOff
      patch (patch (patch out off (storeLen 0x0015)) (off + 2) (storeLen (tmpl.newPadLen name)))
        (off + 4) (List.replicate (tmpl.newPadLen name) 0)

/-- The moves and the draw of phase 5. -/
def resizeEchPayload (name : List UInt8) (d : HelloDraws) (out : List UInt8) : List UInt8 :=
  let payloadOff := tmpl.shiftOff name tmpl.echPayloadOff
  let tailStart := payloadOff + tmpl.baseEchPayloadLen
  patch
    (patch out ((tailStart : Int) + tmpl.echPayloadDelta d).toNat
      (slice out tailStart ((tmpl.lenAfterSniShift name).toNat - tailStart)))
    payloadOff (randomBytes d.echPayload (tmpl.chosenEchPayloadLen d))

/-- The lengths of phase 5. -/
def patchEchLengths (name : List UInt8) (d : HelloDraws) (out : List UInt8) : List UInt8 :=
  patch
    (patchBe16Delta
      (patchBe16Delta (patchBe24Delta out 1 (tmpl.echPayloadDelta d)) tmpl.extensionsLengthOff
        (tmpl.echPayloadDelta d))
      (tmpl.shiftOff name tmpl.echExtLenOff) (tmpl.echPayloadDelta d))
    (tmpl.shiftOff name tmpl.echPayloadLenOff) (storeLen (tmpl.chosenEchPayloadLen d))

/-- Phase 5. -/
def resizeEch (name : List UInt8) (d : HelloDraws) (out : List UInt8) : Option (List UInt8) :=
  if tmpl.echPayloadCandidateLens = [] then some out
  else if (tmpl.lenAfterSniShift name).toNat <
      tmpl.shiftOff name tmpl.echPayloadOff + tmpl.baseEchPayloadLen then none
  else some (tmpl.patchEchLengths name d (tmpl.resizeEchPayload name d out))

/-- `cloak_clienthello_build_with_grease_seed` into the buffer `out`: the length of the message, and
    the buffer. -/
def build (random sessionId x25519KeyShare name : List UInt8) (greaseSeed : GreaseRole → UInt8)
    (d : HelloDraws) (out : List UInt8) : Option (Nat × List UInt8) :=
  if name.length = 0 ∨ 253 < name.length then none
  else if tmpl.lenAfterSniShift name < 0 then none
  else if tmpl.newLen name d < 0 ∨
      (out.length : Int) < max (tmpl.lenAfterSniShift name) (tmpl.newLen name d) then none
  else do
    let out := tmpl.writeFields random sessionId x25519KeyShare name
      (tmpl.patchSniLengths name (tmpl.spliceSni name out))
    let out ← tmpl.fillRegions name d 0 tmpl.randomRegions out
    let out ← tmpl.writePoint name d out
    let out := tmpl.writeGrease name greaseSeed
      (tmpl.writeAeadId name d (tmpl.writeMlkem name d out))
    let out ← tmpl.resizeEch name d (tmpl.resizePadding name out)
    return ((tmpl.newLen name d).toNat, out)

end HelloTemplate

end Cloak
