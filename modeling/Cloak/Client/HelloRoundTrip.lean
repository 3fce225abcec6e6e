import Cloak.Common.HelloTrees
import Cloak.Server.ClientHelloRead

set_option autoImplicit false

/-! # The client's ClientHello, as the server reads it

The record the client builds from any of the three templates is the bytes of a tree that fits, so
every length in it is exact, and the server's parser finds in it what the client put there. -/

namespace Cloak

open Lib Layout HelloTemplate HelloInputs

/-- `cloak_client_browser_t`. -/
inductive ClientBrowser where
  | chrome
  | firefox
  | safari
deriving DecidableEq, Repr

/-- `template_for`. -/
def templateFor : ClientBrowser → HelloTemplate
  | .chrome => clienthelloChrome
  | .firefox => clienthelloFirefox
  | .safari => clienthelloSafari

/-- `CLOAK_CLIENTHELLO_MAX_BYTES`. -/
def clienthelloMaxBytes : Nat := 2176

/-- How `cloak_client_handshake_init` fills `h->hello`: `h->hello_len` and the buffer. -/
def writeHelloRecord (browser : ClientBrowser) (random sessionId x25519KeyShare name : List UInt8)
    (greaseSeed : GreaseRole → UInt8) (d : HelloDraws) (hello : List UInt8) :
    Option (Nat × List UInt8) := do
  let (hsLen, out) ← (templateFor browser).build random sessionId x25519KeyShare name greaseSeed d
    (hello.drop 5)
  guard (0 < hsLen)
  return (5 + hsLen, 0x16 :: 0x03 :: 0x01 :: (storeBe16 (UInt16.ofNat hsLen) ++ out))

/-! ## One tree for each browser -/

/-- The layout of a template. -/
def layoutFor : ClientBrowser → HelloLayout
  | .chrome => chromeLayout
  | .firefox => firefoxLayout
  | .safari => safariLayout

/-- What the message of a build says. -/
def treeFor (a : HelloInputs) : ClientBrowser → HelloTree
  | .chrome => chromeTree a
  | .firefox => firefoxTree a
  | .safari => safariTree a

variable (browser : ClientBrowser) (a : HelloInputs)

theorem described_layoutFor : Described (templateFor browser) (layoutFor browser) := by
  cases browser with
  | chrome => exact described_chrome
  | firefox => exact described_firefox
  | safari => exact described_safari

theorem message_treeFor : (treeFor a browser).message =
    render (a.settled (templateFor browser) (layoutFor browser)) (layoutFor browser) := by
  cases browser with
  | chrome => exact message_chrome a
  | firefox => exact message_firefox a
  | safari => exact message_safari a

theorem fits_treeFor : (treeFor a browser).Fits := by
  cases browser with
  | chrome => exact fits_chrome a
  | firefox => exact fits_firefox a
  | safari => exact fits_safari a

/-- The parser finds the client's fields in the tree. -/
theorem parsed_treeFor : clienthelloParse (treeFor a browser).encode = some
    { random := a.random
      sessionId := some a.sessionId
      x25519KeyShare := some a.keyShare
      sni := some a.name } := by
  have hfound : (treeFor a browser).hostName = some a.name ∧
      (treeFor a browser).x25519Share = some a.keyShare := by
    cases browser with
    | chrome => exact found_chrome a
    | firefox => exact found_firefox a
    | safari => exact found_safari a
  have hsession : (treeFor a browser).sessionId = a.sessionId ∧
      (treeFor a browser).random = a.random := by
    cases browser <;> exact ⟨rfl, rfl⟩
  rw [clienthelloParse_encode _ (fits_treeFor browser a), hfound.1, hfound.2, hsession.1, hsession.2,
    if_neg (by rw [a.sessionId_length]; decide)]

/-! ## Capacity -/

/-- The message is never longer than the buffer, and neither is it before the last phases. -/
theorem working_length_le : max ((templateFor browser).lenAfterSniShift a.name)
    ((templateFor browser).newLen a.name a.draws) ≤ (clienthelloMaxBytes : Int) := by
  have hname := a.name_le
  have hmax : (clienthelloMaxBytes : Int) = 2176 := rfl
  cases browser with
  | chrome =>
    have hlen := chrome_values.2.1
    have hhost : clienthelloChrome.sniHostLen = 15 := rfl
    have hbase : clienthelloChrome.baseEchPayloadLen = 144 := rfl
    have hpayload := length_chromePayload_le a
    rw [length_chromePayload] at hpayload
    have hdelta : clienthelloChrome.echPayloadDelta a.draws =
        (clienthelloChrome.chosenEchPayloadLen a.draws : Int) - 144 := rfl
    simp only [templateFor, newLen, lenAfterSniShift, sniDelta, hlen, hhost, hdelta,
      padDelta_eq_zero (show clienthelloChrome.paddingExtOff = 0 from rfl)]
    omega
  | firefox =>
    have hlen := firefox_values.2.1
    have hhost : clienthelloFirefox.sniHostLen = 15 := rfl
    simp only [templateFor, newLen, lenAfterSniShift, sniDelta, hlen, hhost,
      padDelta_eq_zero (show clienthelloFirefox.paddingExtOff = 0 from rfl),
      echPayloadDelta_eq_zero (show clienthelloFirefox.echPayloadCandidateLens = [] from rfl)]
    omega
  | safari =>
    have hlen := safari_values.2.1
    have hhost : clienthelloSafari.sniHostLen = 15 := rfl
    have htotal := newExtTotal_safari_le a
    have hdelta : clienthelloSafari.padDelta a.name =
        (clienthelloSafari.newExtTotal a.name : Int) - 195 := rfl
    simp only [templateFor, newLen, lenAfterSniShift, sniDelta, hlen, hhost, hdelta,
      echPayloadDelta_eq_zero (show clienthelloSafari.echPayloadCandidateLens = [] from rfl)]
    omega

/-! ## The round trip -/

/-- The record of a message. -/
theorem encode_eq_record (t : HelloTree) :
    t.encode = 0x16 :: 0x03 :: 0x01 :: (beBytes 2 t.message.length ++ t.message) := rfl

/-- For every browser and all inputs the client's record fits its buffer, is the bytes of a tree whose
    every length fits, and is parsed to the client's random, session id, key share and name. -/
theorem hello_round_trip (hello : List UInt8) (hcap : hello.length = 5 + clienthelloMaxBytes) :
    ∃ helloLen hello', writeHelloRecord browser a.random a.sessionId a.keyShare a.name a.greaseSeed
        a.draws hello = some (helloLen, hello') ∧
      hello'.length = hello.length ∧ helloLen ≤ hello.length ∧
      (∃ t : HelloTree, t.Fits ∧ hello'.take helloLen = t.encode) ∧
      clienthelloParse (hello'.take helloLen) = some
        { random := a.random
          sessionId := some a.sessionId
          x25519KeyShare := some a.keyShare
          sni := some a.name } := by
  have hout : (hello.drop 5).length = clienthelloMaxBytes := by
    rw [List.length_drop, hcap]
    omega
  have hwork := working_length_le browser a
  rw [← hout] at hwork
  obtain ⟨out', hbuild, hlength, htake⟩ := build_spec (described_layoutFor browser) a _ hwork
  rw [← message_treeFor] at hbuild htake
  have hfits := fits_treeFor browser a
  have hpos : 0 < (treeFor a browser).message.length := by
    rw [HelloTree.message, List.length_cons]
    omega
  have hle : (treeFor a browser).message.length ≤ out'.length := by
    have h := congrArg List.length htake
    rw [List.length_take] at h
    omega
  have hrecord : (0x16 :: 0x03 :: 0x01 ::
      (storeBe16 (UInt16.ofNat (treeFor a browser).message.length) ++ out')).take
        (5 + (treeFor a browser).message.length) = (treeFor a browser).encode := by
    have hbody : (beBytes 2 (treeFor a browser).message.length ++ out').take
        (2 + (treeFor a browser).message.length) =
        beBytes 2 (treeFor a browser).message.length ++ (treeFor a browser).message := by
      rw [List.take_append, length_beBytes, Nat.add_sub_cancel_left, htake,
        List.take_of_length_le (by rw [length_beBytes]; omega)]
    rw [encode_eq_record, storeBe16_ofNat hfits.message, ← hbody, Nat.add_comm 5, Nat.add_comm 2]
    rfl
  refine ⟨_, _, ?_, ?_, ?_, ⟨_, hfits, hrecord⟩, ?_⟩
  · simp only [writeHelloRecord, hbuild, Option.bind_eq_bind, Option.bind_some, guard, if_pos hpos,
      Option.pure_def]
  · simp only [List.length_cons, List.length_append, length_storeBe16, hlength, hout, hcap]
    omega
  · omega
  · rw [hrecord]
    exact parsed_treeFor browser a

/-- A build whose draws are all zero. -/
def zeroInputs : HelloInputs where
  random := List.replicate 32 0x00
  sessionId := List.replicate 32 0x01
  keyShare := List.replicate 32 0x02
  name := [0x61]
  greaseSeed := fun _ => 0
  draws := ⟨fun _ _ => 0, fun _ => some fun _ => 0, some fun _ => 0, fun _ => 0, fun _ => 0, 0, 0,
    fun _ => 0⟩
  random_length := List.length_replicate
  sessionId_length := List.length_replicate
  keyShare_length := List.length_replicate
  name_pos := Nat.one_pos
  name_le := by decide
  regionKey_isSome := fun _ => rfl
  point_isSome := rfl

theorem hello_round_trip_zeros :
    ∃ helloLen hello', writeHelloRecord .chrome zeroInputs.random zeroInputs.sessionId
        zeroInputs.keyShare zeroInputs.name zeroInputs.greaseSeed zeroInputs.draws
        (List.replicate (5 + clienthelloMaxBytes) 0) = some (helloLen, hello') ∧
      hello'.length = 5 + clienthelloMaxBytes ∧ helloLen ≤ 5 + clienthelloMaxBytes ∧
      (∃ t : HelloTree, t.Fits ∧ hello'.take helloLen = t.encode) ∧
      clienthelloParse (hello'.take helloLen) = some
        { random := List.replicate 32 0x00
          sessionId := some (List.replicate 32 0x01)
          x25519KeyShare := some (List.replicate 32 0x02)
          sni := some [0x61] } := by
  have hlen : (List.replicate (5 + clienthelloMaxBytes) (0 : UInt8)).length = 5 + clienthelloMaxBytes :=
    List.length_replicate
  have h := hello_round_trip .chrome zeroInputs (List.replicate (5 + clienthelloMaxBytes) 0) hlen
  rwa [hlen] at h

end Cloak
