import Cloak.Common.HelloTemplates
import Cloak.Common.HelloTree

set_option autoImplicit false

/-! # The trees of the three messages

What a build with each template says, as a tree, and that the message has the bytes of that tree. The
closed parts are evaluated; the lengths are where the name, the payload and the padding come in. -/

namespace Cloak

open Lib Layout HelloTemplate HelloInputs

variable (a : HelloInputs) (tmpl : HelloTemplate) (L : HelloLayout)

/-! ## The parts all templates share -/

/-- A moved length that comes to `m`. -/
theorem moved_eq {n m : Nat} {bs : List UInt8} {delta : Int} (hm : (beNat bs : Int) + delta = m)
    (hlt : m < 256 ^ n) : moved n bs delta = beBytes n m := by
  have hlt' : (m : Int) < 256 ^ n := by exact_mod_cast hlt
  rw [moved, hm, Int.emod_eq_of_lt (Int.natCast_nonneg m) hlt', Int.toNat_natCast]

theorem settled_sniExtLen (hbase : beNat (frozen L .sniExtLen) = tmpl.sniHostLen + 5) :
    a.settled tmpl L .sniExtLen = beBytes 2 (a.name.length + 5) := by
  have hname := a.name_le
  refine moved_eq ?_ (by omega)
  rw [hbase, sniDelta]
  omega

theorem settled_sniListLen (hbase : beNat (frozen L .sniListLen) = tmpl.sniHostLen + 3) :
    a.settled tmpl L .sniListLen = beBytes 2 (a.name.length + 3) := by
  have hname := a.name_le
  refine moved_eq ?_ (by omega)
  rw [hbase, sniDelta]
  omega

@[simp] theorem settled_random : a.settled tmpl L .random = a.random := rfl

@[simp] theorem settled_sessionId : a.settled tmpl L .sessionId = a.sessionId := rfl

@[simp] theorem settled_keyShare : a.settled tmpl L .keyShare = a.keyShare := rfl

@[simp] theorem settled_host : a.settled tmpl L .host = a.name := rfl

@[simp] theorem settled_sniHostLen : a.settled tmpl L .sniHostLen = beBytes 2 a.name.length := rfl

theorem settled_point (h : tmpl.secp256r1KeyshareOff ≠ 0) :
    a.settled tmpl L .point = randomBytes (a.draws.point.getD fun _ => 0) 65 := if_neg h

theorem settled_mlkem (h : tmpl.mlkemEkOff ≠ 0) :
    a.settled tmpl L .mlkem = fillMlkem768Ek a.draws.coefficients a.draws.seed := if_neg h

theorem settled_aead (h : tmpl.aeadIdOff ≠ 0) :
    a.settled tmpl L .aead = storeLen (tmpl.aeadIdChoice a.draws) := if_neg h

theorem settled_region {i : Nat} {r : HelloRegion} (h : tmpl.randomRegions[i]? = some r) :
    a.settled tmpl L (.region i) = a.regionFill i r := by
  simp only [settled, written, h]

theorem settled_grease {i : Nat} {p : Nat × GreaseRole} (h : tmpl.greasePositions[i]? = some p) :
    a.settled tmpl L (.grease i) = storeBe16 (greaseValue a.greaseSeed p.2) := by
  simp only [settled, written, h]

@[simp] theorem randomBytes_one (draw : Nat → UInt8) : randomBytes draw 1 = [draw 0] := rfl

/-- The extension with the name. -/
theorem encode_serverName (name : List UInt8) :
    (HelloExt.serverName [(0x00, name)]).encode = 0x00 :: 0x00 :: (beBytes 2 (name.length + 5) ++
      (beBytes 2 (name.length + 3) ++ (0x00 :: (beBytes 2 name.length ++ name)))) := by
  simp [HelloExt.encode, HelloExt.extType, HelloExt.body, vec, storeBe16, Nat.add_comm,
    Nat.add_left_comm]

/-- The extension with the encapsulated key and the payload. -/
theorem encode_encryptedClientHello (aead : UInt16) (configId : UInt8) (enc payload : List UInt8)
    (henc : enc.length = 32) :
    (HelloExt.encryptedClientHello 0x00 0x0001 aead configId enc payload).encode =
      0xfe :: 0x0d :: (beBytes 2 (payload.length + 42) ++ (0x00 :: 0x00 :: 0x01 ::
        (storeBe16 aead ++ (configId :: 0x00 :: 0x20 ::
          (enc ++ (beBytes 2 payload.length ++ payload)))))) := by
  have hlen : (HelloExt.encryptedClientHello 0x00 0x0001 aead configId enc payload).body.length =
      payload.length + 42 := by
    simp only [HelloExt.body, List.length_cons, List.length_append, length_storeBe16, length_vec, henc]
    omega
  rw [HelloExt.encode, vec, hlen]
  simp only [HelloExt.extType, HelloExt.body, vec, henc, List.append_assoc]
  rfl

/-- The choice of an AEAD, as a code. -/
def aeadCode (tmpl : HelloTemplate) (d : HelloDraws) : UInt16 := UInt16.ofNat (tmpl.aeadIdChoice d)

theorem storeBe16_aeadCode (d : HelloDraws) (h₁ : tmpl.aeadIdChoices.1 < 2 ^ 16)
    (h₂ : tmpl.aeadIdChoices.2 < 2 ^ 16) :
    storeBe16 (aeadCode tmpl d) = storeLen (tmpl.aeadIdChoice d) := by
  refine storeBe16_ofNat ?_
  unfold aeadIdChoice
  split_ifs <;> assumption

/-- A GREASE value is the type of no extension that is sent with another content. -/
theorem greaseValue_not_mem (seed : GreaseRole → UInt8) (role : GreaseRole) :
    greaseValue seed role ∉ structuredTypes := by
  -- both bytes of a GREASE value end in the digit a, and no structured type is like that
  have hdigits : ∀ i < 256,
      (((UInt8.ofNat i &&& 0xf0) ||| 0x0a).toUInt16 |||
        (((UInt8.ofNat i &&& 0xf0) ||| 0x0a).toUInt16 <<< 8)) &&& 0x0f0f = 0x0a0a ∧
      ((((UInt8.ofNat i &&& 0xf0) ||| 0x0a).toUInt16 |||
        (((UInt8.ofNat i &&& 0xf0) ||| 0x0a).toUInt16 <<< 8)) ^^^ 0x1010) &&& 0x0f0f = 0x0a0a := by
    decide +kernel
  have hall : structuredTypes.all (fun t => t &&& 0x0f0f != 0x0a0a) = true := by decide
  have htypes : ∀ t ∈ structuredTypes, t &&& 0x0f0f ≠ 0x0a0a := fun t hmem =>
    bne_iff_ne.mp (List.all_eq_true.mp hall t hmem)
  have hbyte : ∀ role, greaseByte seed role ∉ structuredTypes ∧
      greaseByte seed role ^^^ 0x1010 ∉ structuredTypes := by
    intro role
    have h := hdigits (seed role).toNat (seed role).toNat_lt
    rw [UInt8.ofNat_toNat] at h
    exact ⟨fun hmem => htypes _ hmem h.1, fun hmem => htypes _ hmem h.2⟩
  unfold greaseValue
  split
  · exact (hbyte .ext2).2
  · exact (hbyte role).1

/-! ## Firefox -/

/-- What the message of a Firefox build says. -/
def firefoxTree : HelloTree where
  version := 0x0303
  random := a.random
  sessionId := a.sessionId
  cipherSuites := [0x1301, 0x1303, 0x1302, 0xc02b, 0xc02f, 0xcca9, 0xcca8, 0xc02c, 0xc030, 0xc00a,
    0xc009, 0xc013, 0xc014, 0x009c, 0x009d, 0x002f, 0x0035]
  compressionMethods := [0x00]
  exts := [.serverName [(0x00, a.name)], .plain 0x0017 [], .renegotiationInfo [],
    .supportedGroups [0x001d, 0x0017, 0x0018, 0x0019, 0x0100, 0x0101], .ecPointFormats [0x00],
    .plain 0x0023 [],
    .alpn [[0x68, 0x32], [0x68, 0x74, 0x74, 0x70, 0x2f, 0x31, 0x2e, 0x31]],
    .statusRequest 0x01 [] [], .delegatedCredentials [0x0403, 0x0503, 0x0603, 0x0203],
    .keyShare [(0x001d, a.keyShare), (0x0017, randomBytes (a.draws.point.getD fun _ => 0) 65)],
    .supportedVersions [0x0304, 0x0303],
    .signatureAlgorithms [0x0403, 0x0503, 0x0603, 0x0804, 0x0805, 0x0806, 0x0401, 0x0501, 0x0601,
      0x0203, 0x0201],
    .pskKeyExchangeModes [0x01], .plain 0x001c [0x40, 0x01],
    .encryptedClientHello 0x00 0x0001 (aeadCode clienthelloFirefox a.draws)
      (a.draws.regionBytes 2 0) (randomBytes ((a.draws.regionKey 0).getD fun _ => 0) 32)
      (randomBytes (a.draws.regionBytes 1) 239)]

/-- The parts of the template that stay, and the lengths it has before a build. -/
theorem firefox_values : firefoxLayout.map Chunk.blank = [
    ⟨none, [0x01]⟩, ⟨some .hsLen, []⟩, ⟨none, [0x03, 0x03]⟩, ⟨some .random, []⟩, ⟨none, [0x20]⟩,
    ⟨some .sessionId, []⟩, ⟨none, [0x00, 0x22, 0x13, 0x01, 0x13, 0x03, 0x13, 0x02, 0xc0, 0x2b, 0xc0,
    0x2f, 0xcc, 0xa9, 0xcc, 0xa8, 0xc0, 0x2c, 0xc0, 0x30, 0xc0, 0x0a, 0xc0, 0x09, 0xc0, 0x13, 0xc0,
    0x14, 0x00, 0x9c, 0x00, 0x9d, 0x00, 0x2f, 0x00, 0x35, 0x01, 0x00]⟩, ⟨some .extsLen, []⟩, ⟨none,
    [0x00, 0x00]⟩, ⟨some .sniExtLen, []⟩, ⟨some .sniListLen, []⟩, ⟨none, [0x00]⟩, ⟨some .sniHostLen,
    []⟩, ⟨some .host, []⟩, ⟨none, [0x00, 0x17, 0x00, 0x00, 0xff, 0x01, 0x00, 0x01, 0x00, 0x00, 0x0a,
    0x00, 0x0e, 0x00, 0x0c, 0x00, 0x1d, 0x00, 0x17, 0x00, 0x18, 0x00, 0x19, 0x01, 0x00, 0x01, 0x01,
    0x00, 0x0b, 0x00, 0x02, 0x01, 0x00, 0x00, 0x23, 0x00, 0x00, 0x00, 0x10, 0x00, 0x0e, 0x00, 0x0c,
    0x02, 0x68, 0x32, 0x08, 0x68, 0x74, 0x74, 0x70, 0x2f, 0x31, 0x2e, 0x31, 0x00, 0x05, 0x00, 0x05,
    0x01, 0x00, 0x00, 0x00, 0x00, 0x00, 0x22, 0x00, 0x0a, 0x00, 0x08, 0x04, 0x03, 0x05, 0x03, 0x06,
    0x03, 0x02, 0x03, 0x00, 0x33, 0x00, 0x6b, 0x00, 0x69, 0x00, 0x1d, 0x00, 0x20]⟩, ⟨some .keyShare,
    []⟩, ⟨none, [0x00, 0x17, 0x00, 0x41]⟩, ⟨some .point, []⟩, ⟨none, [0x00, 0x2b, 0x00, 0x05, 0x04,
    0x03, 0x04, 0x03, 0x03, 0x00, 0x0d, 0x00, 0x18, 0x00, 0x16, 0x04, 0x03, 0x05, 0x03, 0x06, 0x03,
    0x08, 0x04, 0x08, 0x05, 0x08, 0x06, 0x04, 0x01, 0x05, 0x01, 0x06, 0x01, 0x02, 0x03, 0x02, 0x01,
    0x00, 0x2d, 0x00, 0x02, 0x01, 0x01, 0x00, 0x1c, 0x00, 0x02, 0x40, 0x01, 0xfe, 0x0d, 0x01, 0x19,
    0x00, 0x00, 0x01]⟩, ⟨some .aead, []⟩, ⟨some (.region 2), []⟩, ⟨none, [0x00, 0x20]⟩,
    ⟨some (.region 0), []⟩, ⟨none, [0x00, 0xef]⟩, ⟨some (.region 1), []⟩] ∧
    clienthelloFirefox.bytes.length = 658 ∧ beNat (frozen firefoxLayout .hsLen) = 654 ∧
    beNat (frozen firefoxLayout .extsLen) = 547 ∧ beNat (frozen firefoxLayout .sniExtLen) = 20 ∧
    beNat (frozen firefoxLayout .sniListLen) = 18 := by
  decide +kernel

theorem length_exts_firefox :
    ((firefoxTree a).exts.flatMap HelloExt.encode).length = a.name.length + 532 := by
  simp [firefoxTree, HelloExt.encode, HelloExt.body, a.keyShare_length]
  omega

theorem length_body_firefox : (firefoxTree a).body.length = a.name.length + 639 := by
  simp only [HelloTree.body, List.length_append, length_vec, length_exts_firefox]
  simp [firefoxTree, a.random_length, a.sessionId_length]
  omega

theorem settled_firefox_lengths :
    a.settled clienthelloFirefox firefoxLayout .hsLen = beBytes 3 (a.name.length + 639) ∧
    a.settled clienthelloFirefox firefoxLayout .extsLen = beBytes 2 (a.name.length + 532) := by
  have hname := a.name_le
  obtain ⟨-, -, hhs, hexts, -, -⟩ := firefox_values
  have hdelta : clienthelloFirefox.sniDelta a.name + (clienthelloFirefox.padDelta a.name +
      clienthelloFirefox.echPayloadDelta a.draws) = (a.name.length : Int) - 15 := by
    simp [sniDelta, padDelta, echPayloadDelta, clienthelloFirefox]
  constructor
  · refine moved_eq ?_ (by omega)
    rw [hhs, hdelta]
    omega
  · refine moved_eq ?_ (by omega)
    rw [hexts, hdelta]
    omega

set_option maxRecDepth 4000 in
theorem message_firefox :
    (firefoxTree a).message = render (a.settled clienthelloFirefox firefoxLayout) firefoxLayout := by
  obtain ⟨hblank, -, -, -, hextBase, hlistBase⟩ := firefox_values
  obtain ⟨hhs, hexts⟩ := settled_firefox_lengths a
  have hext := settled_sniExtLen a clienthelloFirefox firefoxLayout hextBase
  have hlist := settled_sniListLen a clienthelloFirefox firefoxLayout hlistBase
  have haead := storeBe16_aeadCode clienthelloFirefox a.draws (by decide) (by decide)
  rw [← render_map_blank, hblank, HelloTree.message, vec, length_body_firefox,
    HelloTree.body, vec, vec, vec, vec, length_exts_firefox]
  simp only [render_cons, render_nil, Chunk.render, hhs, hexts, hext, hlist]
  simp only [firefoxTree, codes, List.flatMap_cons, List.flatMap_nil, encode_serverName,
    encode_encryptedClientHello _ _ _ _ (length_randomBytes _ 32)]
  simp only [HelloExt.encode, HelloExt.extType, HelloExt.body, vec, codes, haead, a.sessionId_length,
    a.keyShare_length, length_randomBytes, length_storeBe16, length_beBytes, List.flatMap_cons,
    List.flatMap_nil, List.length_append, List.length_cons, List.length_nil, List.append_nil,
    List.append_assoc]
  have hpoint := settled_point a clienthelloFirefox firefoxLayout (by decide)
  have haead' := settled_aead a clienthelloFirefox firefoxLayout (by decide)
  have hregion : ∀ {i r}, clienthelloFirefox.randomRegions[i]? = some r →
      a.settled clienthelloFirefox firefoxLayout (.region i) = a.regionFill i r := settled_region a _ _
  simp only [settled_random, settled_sessionId, settled_keyShare, settled_host, settled_sniHostLen,
    hpoint, haead', hregion (i := 0) rfl, hregion (i := 1) rfl, hregion (i := 2) rfl, regionFill, storeBe16, storeLen, List.cons_append, List.nil_append]
  simp [beBytes]
  decide

theorem fits_firefox : (firefoxTree a).Fits where
  random := a.random_length
  sessionId := a.sessionId_length.trans_lt (by decide)
  compressionMethods := Nat.one_lt_two_pow (by decide)
  message := by
    have hname := a.name_le
    simp only [HelloTree.message, List.length_cons, length_vec, length_body_firefox]
    omega
  exts := by
    have hname := a.name_le
    simp [firefoxTree, HelloExt.Fits, HelloExt.body, structuredTypes, a.keyShare_length]
    omega

theorem found_firefox :
    (firefoxTree a).hostName = some a.name ∧ (firefoxTree a).x25519Share = some a.keyShare := by
  have hshares : (firefoxTree a).exts.flatMap HelloExt.shares =
      [(0x001d, a.keyShare), (0x0017, randomBytes (a.draws.point.getD fun _ => 0) 65)] := rfl
  refine ⟨rfl, ?_⟩
  rw [HelloTree.x25519Share, hshares]
  simp [a.keyShare_length]

/-! ## Chrome -/

/-- The payload of the ECH extension. -/
def chromePayload : List UInt8 :=
  randomBytes a.draws.echPayload (clienthelloChrome.chosenEchPayloadLen a.draws)

/-- What the message of a Chrome build says. -/
def chromeTree : HelloTree where
  version := 0x0303
  random := a.random
  sessionId := a.sessionId
  cipherSuites := [greaseValue a.greaseSeed .cipher, 0x1301, 0x1302, 0x1303, 0xc02b, 0xc02f, 0xc02c,
    0xc030, 0xcca9, 0xcca8, 0xc013, 0xc014, 0x009c, 0x009d, 0x002f, 0x0035]
  compressionMethods := [0x00]
  exts := [.plain (greaseValue a.greaseSeed .ext1) [], .serverName [(0x00, a.name)],
    .statusRequest 0x01 [] [], .renegotiationInfo [], .compressCertificate [0x0002],
    .alpn [[0x68, 0x32], [0x68, 0x74, 0x74, 0x70, 0x2f, 0x31, 0x2e, 0x31]],
    .applicationSettings [[0x68, 0x32]], .plain 0x0017 [],
    .keyShare [(greaseValue a.greaseSeed .group, [0x00]),
      (0x11ec, fillMlkem768Ek a.draws.coefficients a.draws.seed ++
        randomBytes ((a.draws.regionKey 0).getD fun _ => 0) 32),
      (0x001d, a.keyShare)],
    .ecPointFormats [0x00], .plain 0x0023 [], .pskKeyExchangeModes [0x01],
    .supportedGroups [greaseValue a.greaseSeed .group, 0x11ec, 0x001d, 0x0017, 0x0018],
    .supportedVersions [greaseValue a.greaseSeed .version, 0x0304, 0x0303],
    .signatureAlgorithms [0x0403, 0x0804, 0x0401, 0x0503, 0x0805, 0x0501, 0x0806, 0x0601],
    .encryptedClientHello 0x00 0x0001 (aeadCode clienthelloChrome a.draws)
      (a.draws.regionBytes 2 0) (randomBytes ((a.draws.regionKey 1).getD fun _ => 0) 32)
      (chromePayload a),
    .plain 0x0012 [], .plain (greaseValue a.greaseSeed .ext2) [0x00]]

/-- The parts of the template that stay, and the lengths it has before a build. -/
theorem chrome_values : chromeLayout.map Chunk.blank = [
    ⟨none, [0x01]⟩, ⟨some .hsLen, []⟩, ⟨none, [0x03, 0x03]⟩, ⟨some .random, []⟩, ⟨none, [0x20]⟩,
    ⟨some .sessionId, []⟩, ⟨none, [0x00, 0x20]⟩, ⟨some (.grease 0), []⟩, ⟨none, [0x13, 0x01, 0x13,
    0x02, 0x13, 0x03, 0xc0, 0x2b, 0xc0, 0x2f, 0xc0, 0x2c, 0xc0, 0x30, 0xcc, 0xa9, 0xcc, 0xa8, 0xc0,
    0x13, 0xc0, 0x14, 0x00, 0x9c, 0x00, 0x9d, 0x00, 0x2f, 0x00, 0x35, 0x01, 0x00]⟩, ⟨some .extsLen,
    []⟩, ⟨some (.grease 1), []⟩, ⟨none, [0x00, 0x00, 0x00, 0x00]⟩, ⟨some .sniExtLen, []⟩,
    ⟨some .sniListLen, []⟩, ⟨none, [0x00]⟩, ⟨some .sniHostLen, []⟩, ⟨some .host, []⟩, ⟨none, [0x00,
    0x05, 0x00, 0x05, 0x01, 0x00, 0x00, 0x00, 0x00, 0xff, 0x01, 0x00, 0x01, 0x00, 0x00, 0x1b, 0x00,
    0x03, 0x02, 0x00, 0x02, 0x00, 0x10, 0x00, 0x0e, 0x00, 0x0c, 0x02, 0x68, 0x32, 0x08, 0x68, 0x74,
    0x74, 0x70, 0x2f, 0x31, 0x2e, 0x31, 0x44, 0xcd, 0x00, 0x05, 0x00, 0x03, 0x02, 0x68, 0x32, 0x00,
    0x17, 0x00, 0x00, 0x00, 0x33, 0x04, 0xef, 0x04, 0xed]⟩, ⟨some (.grease 2), []⟩, ⟨none, [0x00,
    0x01, 0x00, 0x11, 0xec, 0x04, 0xc0]⟩, ⟨some .mlkem, []⟩, ⟨some (.region 0), []⟩, ⟨none, [0x00,
    0x1d, 0x00, 0x20]⟩, ⟨some .keyShare, []⟩, ⟨none, [0x00, 0x0b, 0x00, 0x02, 0x01, 0x00, 0x00,
    0x23, 0x00, 0x00, 0x00, 0x2d, 0x00, 0x02, 0x01, 0x01, 0x00, 0x0a, 0x00, 0x0c, 0x00, 0x0a]⟩,
    ⟨some (.grease 3), []⟩, ⟨none, [0x11, 0xec, 0x00, 0x1d, 0x00, 0x17, 0x00, 0x18, 0x00, 0x2b,
    0x00, 0x07, 0x06]⟩, ⟨some (.grease 4), []⟩, ⟨none, [0x03, 0x04, 0x03, 0x03, 0x00, 0x0d, 0x00,
    0x12, 0x00, 0x10, 0x04, 0x03, 0x08, 0x04, 0x04, 0x01, 0x05, 0x03, 0x08, 0x05, 0x05, 0x01, 0x08,
    0x06, 0x06, 0x01, 0xfe, 0x0d]⟩, ⟨some .echExtLen, []⟩, ⟨none, [0x00, 0x00, 0x01]⟩, ⟨some .aead,
    []⟩, ⟨some (.region 2), []⟩, ⟨none, [0x00, 0x20]⟩, ⟨some (.region 1), []⟩, ⟨some .echPayloadLen,
    []⟩, ⟨some .echPayload, []⟩, ⟨none, [0x00, 0x12, 0x00, 0x00]⟩, ⟨some (.grease 5), []⟩, ⟨none,
    [0x00, 0x01, 0x00]⟩] ∧
    clienthelloChrome.bytes.length = 1720 ∧ beNat (frozen chromeLayout .hsLen) = 1716 ∧
    beNat (frozen chromeLayout .extsLen) = 1611 ∧ beNat (frozen chromeLayout .sniExtLen) = 20 ∧
    beNat (frozen chromeLayout .sniListLen) = 18 ∧
    beNat (frozen chromeLayout .echExtLen) = 186 := by
  decide +kernel

theorem length_chromePayload :
    (chromePayload a).length = clienthelloChrome.chosenEchPayloadLen a.draws :=
  length_randomBytes _ _

theorem length_chromePayload_le : (chromePayload a).length ≤ 240 := by
  have hmem := chosenEchPayloadLen_mem (show clienthelloChrome.echPayloadCandidateLens ≠ [] by decide)
    (by decide) a.draws
  have hall : ∀ len ∈ clienthelloChrome.echPayloadCandidateLens, len ≤ 240 := by decide
  rw [length_chromePayload]
  exact hall _ hmem

theorem length_exts_chrome : ((chromeTree a).exts.flatMap HelloExt.encode).length =
    a.name.length + (chromePayload a).length + 1452 := by
  simp only [chromeTree, HelloExt.encode, HelloExt.body, a.keyShare_length, length_fillMlkem768Ek,
    length_vec, length_storeBe16, length_codes, length_randomBytes, List.flatMap_cons,
    List.flatMap_nil, List.length_append, List.length_cons, List.length_nil]
  omega

theorem length_body_chrome :
    (chromeTree a).body.length = a.name.length + (chromePayload a).length + 1557 := by
  simp only [HelloTree.body, List.length_append, length_vec, length_exts_chrome]
  simp [chromeTree, a.random_length, a.sessionId_length]
  omega

theorem settled_chrome_lengths :
    a.settled clienthelloChrome chromeLayout .hsLen =
      beBytes 3 (a.name.length + (chromePayload a).length + 1557) ∧
    a.settled clienthelloChrome chromeLayout .extsLen =
      beBytes 2 (a.name.length + (chromePayload a).length + 1452) ∧
    a.settled clienthelloChrome chromeLayout .echExtLen =
      beBytes 2 ((chromePayload a).length + 42) := by
  have hname := a.name_le
  have hpayload := length_chromePayload_le a
  obtain ⟨-, -, hhs, hexts, -, -, hech⟩ := chrome_values
  have hechDelta : clienthelloChrome.echPayloadDelta a.draws =
      ((chromePayload a).length : Int) - 144 := by
    rw [length_chromePayload]
    exact if_neg (by decide)
  have hdelta : clienthelloChrome.sniDelta a.name + (clienthelloChrome.padDelta a.name +
      clienthelloChrome.echPayloadDelta a.draws) =
      (a.name.length : Int) - 15 + ((chromePayload a).length - 144) := by
    rw [padDelta_eq_zero (by decide), hechDelta, zero_add]
    rfl
  refine ⟨moved_eq ?_ (by omega), moved_eq ?_ (by omega), ?_⟩
  · rw [hhs, hdelta]
    omega
  · rw [hexts, hdelta]
    omega
  · have hmove : a.settled clienthelloChrome chromeLayout .echExtLen =
        moved 2 (frozen chromeLayout .echExtLen) (clienthelloChrome.echPayloadDelta a.draws) := rfl
    rw [hmove]
    refine moved_eq ?_ (by omega)
    rw [hech, hechDelta]
    omega

set_option maxRecDepth 4000 in
theorem message_chrome :
    (chromeTree a).message = render (a.settled clienthelloChrome chromeLayout) chromeLayout := by
  obtain ⟨hblank, -, -, -, hextBase, hlistBase, -⟩ := chrome_values
  obtain ⟨hhs, hexts, hech⟩ := settled_chrome_lengths a
  have hext := settled_sniExtLen a clienthelloChrome chromeLayout hextBase
  have hlist := settled_sniListLen a clienthelloChrome chromeLayout hlistBase
  have haead := storeBe16_aeadCode clienthelloChrome a.draws (by decide) (by decide)
  have haead' := settled_aead a clienthelloChrome chromeLayout (by decide)
  have hmlkem := settled_mlkem a clienthelloChrome chromeLayout (by decide)
  have hregion : ∀ {i r}, clienthelloChrome.randomRegions[i]? = some r →
      a.settled clienthelloChrome chromeLayout (.region i) = a.regionFill i r := settled_region a _ _
  have hgrease : ∀ {i p}, clienthelloChrome.greasePositions[i]? = some p →
      a.settled clienthelloChrome chromeLayout (.grease i) =
        storeBe16 (greaseValue a.greaseSeed p.2) := settled_grease a _ _
  have hpayloadLen : a.settled clienthelloChrome chromeLayout .echPayloadLen =
      storeLen (chromePayload a).length := by
    rw [length_chromePayload]
    rfl
  have hpayload : a.settled clienthelloChrome chromeLayout .echPayload = chromePayload a := rfl
  rw [← render_map_blank, hblank, HelloTree.message, vec, length_body_chrome,
    HelloTree.body, vec, vec, vec, vec, length_exts_chrome]
  simp only [render_cons, render_nil, Chunk.render, hhs, hexts, hech, hext, hlist]
  simp only [chromeTree, codes, List.flatMap_cons, List.flatMap_nil, encode_serverName,
    encode_encryptedClientHello _ _ _ _ (length_randomBytes _ 32)]
  simp only [HelloExt.encode, HelloExt.extType, HelloExt.body, vec, codes, haead, a.sessionId_length,
    a.keyShare_length, length_randomBytes, length_fillMlkem768Ek, length_storeBe16, length_beBytes,
    List.flatMap_cons, List.flatMap_nil, List.length_append, List.length_cons, List.length_nil,
    List.append_nil, List.append_assoc]
  simp only [settled_random, settled_sessionId, settled_keyShare, settled_host, settled_sniHostLen,
    haead', hmlkem, hregion (i := 0) rfl, hregion (i := 1) rfl, hregion (i := 2) rfl,
    hgrease (i := 0) rfl, hgrease (i := 1) rfl, hgrease (i := 2) rfl, hgrease (i := 3) rfl,
    hgrease (i := 4) rfl, hgrease (i := 5) rfl, hpayloadLen, hpayload, regionFill, storeBe16,
    storeLen, List.cons_append, List.nil_append]
  simp [beBytes]
  decide

theorem fits_chrome : (chromeTree a).Fits where
  random := a.random_length
  sessionId := a.sessionId_length.trans_lt (by decide)
  compressionMethods := Nat.one_lt_two_pow (by decide)
  message := by
    have hname := a.name_le
    have hpayload := length_chromePayload_le a
    simp only [HelloTree.message, List.length_cons, length_vec, length_body_chrome]
    omega
  exts := by
    have hname := a.name_le
    have hpayload := length_chromePayload_le a
    have hgrease := greaseValue_not_mem a.greaseSeed
    have hsct : (0x0012 : UInt16) ∉ structuredTypes := by decide
    have hems : (0x0017 : UInt16) ∉ structuredTypes := by decide
    have hticket : (0x0023 : UInt16) ∉ structuredTypes := by decide
    simp [chromeTree, HelloExt.Fits, HelloExt.body, hgrease, hsct, hems, hticket, a.keyShare_length,
      length_fillMlkem768Ek]
    omega

/-- The GREASE share has one byte, and the hybrid one has another group. -/
theorem found_chrome :
    (chromeTree a).hostName = some a.name ∧ (chromeTree a).x25519Share = some a.keyShare := by
  have hshares : (chromeTree a).exts.flatMap HelloExt.shares =
      [(greaseValue a.greaseSeed .group, [0x00]),
      (0x11ec, fillMlkem768Ek a.draws.coefficients a.draws.seed ++
        randomBytes ((a.draws.regionKey 0).getD fun _ => 0) 32),
      (0x001d, a.keyShare)] := rfl
  refine ⟨rfl, ?_⟩
  rw [HelloTree.x25519Share, hshares]
  simp [a.keyShare_length]

/-! ## Safari -/

/-- The padding extension, if there is one. -/
def safariPadding : List HelloExt :=
  if clienthelloSafari.newPadLen a.name = 0 then []
  else [.plain 0x0015 (List.replicate (clienthelloSafari.newPadLen a.name) 0)]

/-- What the message of a Safari build says. -/
def safariTree : HelloTree where
  version := 0x0303
  random := a.random
  sessionId := a.sessionId
  cipherSuites := [greaseValue a.greaseSeed .cipher, 0x1301, 0x1302, 0x1303, 0xc02c, 0xc02b, 0xcca9,
    0xc030, 0xc02f, 0xcca8, 0xc00a, 0xc009, 0xc014, 0xc013, 0x009d, 0x009c, 0x0035, 0x002f, 0xc008,
    0xc012, 0x000a]
  compressionMethods := [0x00]
  exts := [.plain (greaseValue a.greaseSeed .ext1) [], .serverName [(0x00, a.name)],
    .plain 0x0017 [], .renegotiationInfo [],
    .supportedGroups [greaseValue a.greaseSeed .group, 0x001d, 0x0017, 0x0018, 0x0019],
    .ecPointFormats [0x00],
    .alpn [[0x68, 0x32], [0x68, 0x74, 0x74, 0x70, 0x2f, 0x31, 0x2e, 0x31]],
    .statusRequest 0x01 [] [],
    .signatureAlgorithms [0x0403, 0x0804, 0x0401, 0x0503, 0x0203, 0x0805, 0x0805, 0x0501, 0x0806,
      0x0601, 0x0201],
    .plain 0x0012 [],
    .keyShare [(greaseValue a.greaseSeed .group, [0x00]), (0x001d, a.keyShare)],
    .pskKeyExchangeModes [0x01],
    .supportedVersions [greaseValue a.greaseSeed .version, 0x0304, 0x0303, 0x0302, 0x0301],
    .compressCertificate [0x0001], .plain (greaseValue a.greaseSeed .ext2) [0x00]] ++
    safariPadding a

/-- The parts of the template that stay, and the lengths it has before a build. -/
theorem safari_values : safariLayout.map Chunk.blank = [
    ⟨none, [0x01]⟩, ⟨some .hsLen, []⟩, ⟨none, [0x03, 0x03]⟩, ⟨some .random, []⟩, ⟨none, [0x20]⟩,
    ⟨some .sessionId, []⟩, ⟨none, [0x00, 0x2a]⟩, ⟨some (.grease 0), []⟩, ⟨none, [0x13, 0x01, 0x13,
    0x02, 0x13, 0x03, 0xc0, 0x2c, 0xc0, 0x2b, 0xcc, 0xa9, 0xc0, 0x30, 0xc0, 0x2f, 0xcc, 0xa8, 0xc0,
    0x0a, 0xc0, 0x09, 0xc0, 0x14, 0xc0, 0x13, 0x00, 0x9d, 0x00, 0x9c, 0x00, 0x35, 0x00, 0x2f, 0xc0,
    0x08, 0xc0, 0x12, 0x00, 0x0a, 0x01, 0x00]⟩, ⟨some .extsLen, []⟩, ⟨some (.grease 1), []⟩, ⟨none,
    [0x00, 0x00, 0x00, 0x00]⟩, ⟨some .sniExtLen, []⟩, ⟨some .sniListLen, []⟩, ⟨none, [0x00]⟩,
    ⟨some .sniHostLen, []⟩, ⟨some .host, []⟩, ⟨none, [0x00, 0x17, 0x00, 0x00, 0xff, 0x01, 0x00,
    0x01, 0x00, 0x00, 0x0a, 0x00, 0x0c, 0x00, 0x0a]⟩, ⟨some (.grease 2), []⟩, ⟨none, [0x00, 0x1d,
    0x00, 0x17, 0x00, 0x18, 0x00, 0x19, 0x00, 0x0b, 0x00, 0x02, 0x01, 0x00, 0x00, 0x10, 0x00, 0x0e,
    0x00, 0x0c, 0x02, 0x68, 0x32, 0x08, 0x68, 0x74, 0x74, 0x70, 0x2f, 0x31, 0x2e, 0x31, 0x00, 0x05,
    0x00, 0x05, 0x01, 0x00, 0x00, 0x00, 0x00, 0x00, 0x0d, 0x00, 0x18, 0x00, 0x16, 0x04, 0x03, 0x08,
    0x04, 0x04, 0x01, 0x05, 0x03, 0x02, 0x03, 0x08, 0x05, 0x08, 0x05, 0x05, 0x01, 0x08, 0x06, 0x06,
    0x01, 0x02, 0x01, 0x00, 0x12, 0x00, 0x00, 0x00, 0x33, 0x00, 0x2b, 0x00, 0x29]⟩,
    ⟨some (.grease 3), []⟩, ⟨none, [0x00, 0x01, 0x00, 0x00, 0x1d, 0x00, 0x20]⟩, ⟨some .keyShare,
    []⟩, ⟨none, [0x00, 0x2d, 0x00, 0x02, 0x01, 0x01, 0x00, 0x2b, 0x00, 0x0b, 0x0a]⟩,
    ⟨some (.grease 4), []⟩, ⟨none, [0x03, 0x04, 0x03, 0x03, 0x03, 0x02, 0x03, 0x01, 0x00, 0x1b,
    0x00, 0x03, 0x02, 0x00, 0x01]⟩, ⟨some (.grease 5), []⟩, ⟨none, [0x00, 0x01, 0x00]⟩,
    ⟨some .padding, []⟩] ∧
    clienthelloSafari.bytes.length = 512 ∧ beNat (frozen safariLayout .hsLen) = 508 ∧
    beNat (frozen safariLayout .extsLen) = 393 ∧ beNat (frozen safariLayout .sniExtLen) = 20 ∧
    beNat (frozen safariLayout .sniListLen) = 18 := by
  decide +kernel

theorem encode_safariPadding :
    (safariPadding a).flatMap HelloExt.encode = a.newPadding clienthelloSafari := by
  unfold safariPadding newPadding
  by_cases h : clienthelloSafari.newPadLen a.name = 0
  · rw [if_pos h, if_pos h, List.flatMap_nil]
  · have htype : storeBe16 0x0015 = storeLen 0x0015 := by decide
    rw [if_neg h, if_neg h, List.flatMap_singleton, HelloExt.encode, vec, HelloExt.body,
      List.length_replicate, HelloExt.extType, htype]
    rfl

theorem length_newPadding :
    (a.newPadding clienthelloSafari).length = clienthelloSafari.newExtTotal a.name := by
  unfold newPadding newExtTotal
  by_cases h : clienthelloSafari.newPadLen a.name = 0
  · rw [if_pos h, if_pos h, List.length_nil]
  · rw [if_neg h, if_neg h]
    simp only [storeLen, List.length_append, length_beBytes, List.length_replicate]
    omega

theorem newPadLen_safari_le : clienthelloSafari.newPadLen a.name ≤ 508 := by
  have hlen := safari_values.2.1
  have hhost : clienthelloSafari.sniHostLen = 15 := rfl
  have hpad : clienthelloSafari.paddingDataLen = 191 := rfl
  simp only [newPadLen, lenAfterSniShift, sniDelta, hlen, hhost, hpad]
  split_ifs <;> omega

theorem newExtTotal_safari_le : clienthelloSafari.newExtTotal a.name ≤ 512 := by
  have hpad := newPadLen_safari_le a
  unfold newExtTotal
  split_ifs <;> omega

theorem length_exts_safari : ((safariTree a).exts.flatMap HelloExt.encode).length =
    a.name.length + clienthelloSafari.newExtTotal a.name + 183 := by
  simp only [safariTree, List.flatMap_append, List.length_append, encode_safariPadding,
    length_newPadding]
  simp [HelloExt.encode, HelloExt.body, a.keyShare_length]
  omega

theorem length_body_safari :
    (safariTree a).body.length = a.name.length + clienthelloSafari.newExtTotal a.name + 298 := by
  simp only [HelloTree.body, List.length_append, length_vec, length_exts_safari]
  simp [safariTree, a.random_length, a.sessionId_length]
  omega

theorem settled_safari_lengths :
    a.settled clienthelloSafari safariLayout .hsLen =
      beBytes 3 (a.name.length + clienthelloSafari.newExtTotal a.name + 298) ∧
    a.settled clienthelloSafari safariLayout .extsLen =
      beBytes 2 (a.name.length + clienthelloSafari.newExtTotal a.name + 183) := by
  have hname := a.name_le
  have htotal := newExtTotal_safari_le a
  obtain ⟨-, -, hhs, hexts, -, -⟩ := safari_values
  have hdelta : clienthelloSafari.sniDelta a.name + (clienthelloSafari.padDelta a.name +
      clienthelloSafari.echPayloadDelta a.draws) =
      (a.name.length : Int) - 15 + (clienthelloSafari.newExtTotal a.name - 195) := by
    rw [echPayloadDelta_eq_zero (by decide), add_zero]
    rfl
  refine ⟨moved_eq ?_ (by omega), moved_eq ?_ (by omega)⟩
  · rw [hhs, hdelta]
    omega
  · rw [hexts, hdelta]
    omega

set_option maxRecDepth 4000 in
theorem message_safari :
    (safariTree a).message = render (a.settled clienthelloSafari safariLayout) safariLayout := by
  obtain ⟨hblank, -, -, -, hextBase, hlistBase⟩ := safari_values
  obtain ⟨hhs, hexts⟩ := settled_safari_lengths a
  have hext := settled_sniExtLen a clienthelloSafari safariLayout hextBase
  have hlist := settled_sniListLen a clienthelloSafari safariLayout hlistBase
  have hgrease : ∀ {i p}, clienthelloSafari.greasePositions[i]? = some p →
      a.settled clienthelloSafari safariLayout (.grease i) =
        storeBe16 (greaseValue a.greaseSeed p.2) := settled_grease a _ _
  have hpadding : a.settled clienthelloSafari safariLayout .padding =
      a.newPadding clienthelloSafari := rfl
  rw [← render_map_blank, hblank, HelloTree.message, vec, length_body_safari,
    HelloTree.body, vec, vec, vec, vec, length_exts_safari]
  simp only [render_cons, render_nil, Chunk.render, hhs, hexts, hext, hlist]
  simp only [safariTree, codes, List.flatMap_append, List.flatMap_cons, List.flatMap_nil,
    encode_serverName, encode_safariPadding]
  simp only [HelloExt.encode, HelloExt.extType, HelloExt.body, vec, codes, a.sessionId_length,
    a.keyShare_length, length_storeBe16, length_beBytes, List.flatMap_cons, List.flatMap_nil,
    List.length_append, List.length_cons, List.length_nil, List.append_nil, List.append_assoc]
  simp only [settled_random, settled_sessionId, settled_keyShare, settled_host, settled_sniHostLen,
    hgrease (i := 0) rfl, hgrease (i := 1) rfl, hgrease (i := 2) rfl, hgrease (i := 3) rfl,
    hgrease (i := 4) rfl, hgrease (i := 5) rfl, hpadding, storeBe16, List.cons_append,
    List.nil_append]
  simp [beBytes]
  decide

theorem fits_safari : (safariTree a).Fits where
  random := a.random_length
  sessionId := a.sessionId_length.trans_lt (by decide)
  compressionMethods := Nat.one_lt_two_pow (by decide)
  message := by
    have hname := a.name_le
    have htotal := newExtTotal_safari_le a
    simp only [HelloTree.message, List.length_cons, length_vec, length_body_safari]
    omega
  exts := by
    have hname := a.name_le
    have hgrease := greaseValue_not_mem a.greaseSeed
    have hsct : (0x0012 : UInt16) ∉ structuredTypes := by decide
    have hpadding : (0x0015 : UInt16) ∉ structuredTypes := by decide
    have hems : (0x0017 : UInt16) ∉ structuredTypes := by decide
    rw [safariTree, List.forall_mem_append]
    constructor
    · simp [HelloExt.Fits, HelloExt.body, hgrease, hsct, hems, a.keyShare_length]
      omega
    · have hpad := newPadLen_safari_le a
      unfold safariPadding
      split_ifs
      · simp
      · simp [HelloExt.Fits, HelloExt.body, hpadding]
        omega

theorem found_safari :
    (safariTree a).hostName = some a.name ∧ (safariTree a).x25519Share = some a.keyShare := by
  have hshares : (safariTree a).exts.flatMap HelloExt.shares =
      [(greaseValue a.greaseSeed .group, [0x00]), (0x001d, a.keyShare)] ++
        (safariPadding a).flatMap HelloExt.shares := rfl
  refine ⟨rfl, ?_⟩
  rw [HelloTree.x25519Share, hshares]
  simp [a.keyShare_length]

end Cloak
