import Cloak.Common.HelloLayout

set_option autoImplicit false

/-! # The layouts of the three templates -/

namespace Cloak

open Lib Layout

/-- The field `f` of a template cut into `sizes` lies at `off` and has `len` bytes. -/
def SizedAt (sizes : List (Option HelloField × Nat)) (f : HelloField) (off len : Nat) : Prop :=
  (some f, len) ∈ sizes ∧ width (sizesBefore sizes f) = off

instance (sizes : List (Option HelloField × Nat)) (f : HelloField) (off len : Nat) :
    Decidable (SizedAt sizes f off len) := inferInstanceAs (Decidable (_ ∧ _))

/-- The name of a field is among `sizes`. -/
def Named (sizes : List (Option HelloField × Nat)) (f : HelloField) : Prop :=
  some f ∈ sizes.map Prod.fst

instance (sizes : List (Option HelloField × Nat)) (f : HelloField) : Decidable (Named sizes f) :=
  inferInstanceAs (Decidable (_ ∈ _))

/-- `Described`, of the sizes alone. -/
structure Sized (tmpl : HelloTemplate) (sizes : List (Option HelloField × Nat)) : Prop where
  total : tmpl.bytes.length = width sizes
  distinct : (sizes.filterMap Prod.fst).Nodup
  hsLen : SizedAt sizes .hsLen 1 3
  random : SizedAt sizes .random tmpl.randomOff 32
  sessionId : SizedAt sizes .sessionId tmpl.sessionIdOff 32
  keyShare : SizedAt sizes .keyShare tmpl.keyshareOff 32
  extsLen : SizedAt sizes .extsLen tmpl.extensionsLengthOff 2
  sniExtLen : SizedAt sizes .sniExtLen tmpl.sniExtLengthOff 2
  sniListLen : SizedAt sizes .sniListLen tmpl.sniListLengthOff 2
  sniHostLen : SizedAt sizes .sniHostLen tmpl.sniHostLengthOff 2
  host : SizedAt sizes .host tmpl.sniHostOff tmpl.sniHostLen
  behind : ∀ f ∈ sizes.filterMap Prod.fst,
    Named (sizesBefore sizes f) .host ↔ tmpl.sniHostOff < width (sizesBefore sizes f)
  fixed : ∀ f ∈ [HelloField.hsLen, .random, .sessionId, .extsLen, .sniExtLen, .sniListLen,
    .sniHostLen], ¬ Named (sizesBefore sizes f) .host
  keyShare_behind : Named (sizesBefore sizes .keyShare) .host
  regions : ∀ p ∈ tmpl.randomRegions.zipIdx, SizedAt sizes (.region p.2) p.1.off p.1.size
  point : tmpl.secp256r1KeyshareOff ≠ 0 → SizedAt sizes .point tmpl.secp256r1KeyshareOff 65
  mlkem : tmpl.mlkemEkOff ≠ 0 → SizedAt sizes .mlkem tmpl.mlkemEkOff 1184
  aead : tmpl.aeadIdOff ≠ 0 → SizedAt sizes .aead tmpl.aeadIdOff 2
  grease : ∀ p ∈ tmpl.greasePositions.zipIdx, SizedAt sizes (.grease p.2) p.1.1 2
  padding : tmpl.paddingExtOff ≠ 0 →
    SizedAt sizes .padding tmpl.paddingExtOff (4 + tmpl.paddingDataLen) ∧
    Named (sizesBefore sizes .padding) .host ∧
    sizes.length = (sizesBefore sizes .padding).length + 1
  ech : tmpl.echPayloadCandidateLens ≠ [] → SizedAt sizes .echExtLen tmpl.echExtLenOff 2 ∧
    SizedAt sizes .echPayloadLen tmpl.echPayloadLenOff 2 ∧
    SizedAt sizes .echPayload tmpl.echPayloadOff tmpl.baseEchPayloadLen ∧
    (∀ len ∈ tmpl.echPayloadCandidateLens, tmpl.baseEchPayloadLen ≤ len) ∧
    tmpl.echPayloadCandidateLens.length < 2 ^ 32 ∧
    ∀ f ∈ [HelloField.hsLen, .extsLen, .echExtLen, .echPayloadLen],
      ¬ Named (sizesBefore sizes f) .echPayload
  exclusive : tmpl.paddingExtOff = 0 ∨ tmpl.echPayloadCandidateLens = []

/-- A template is described by the sizes it is cut into, whatever its bytes are. -/
theorem Sized.described {tmpl : HelloTemplate} {sizes : List (Option HelloField × Nat)}
    (h : Sized tmpl sizes) : Described tmpl (cutLayout sizes tmpl.bytes) := by
  have hdist : Distinct (cutLayout sizes tmpl.bytes) := by
    rw [Distinct, filterMap_field_cutLayout]
    exact h.distinct
  have hoff := offset_cutLayout h.distinct h.total.ge
  have hfield : ∀ {f : HelloField} {off len : Nat}, SizedAt sizes f off len →
      FieldAt (cutLayout sizes tmpl.bytes) f off len := fun {f _ _} hf =>
    ⟨has_cutLayout.mpr (List.mem_map_of_mem hf.1), (hoff f).trans hf.2,
      length_frozen_cutLayout h.distinct h.total.ge hf.1⟩
  have hbefore : ∀ f g, Has (before (cutLayout sizes tmpl.bytes) f) g
      ↔ Named (sizesBefore sizes f) g := fun f g => by
    rw [before_cutLayout]
    exact has_cutLayout
  have hlength : ∀ sizes : List (Option HelloField × Nat),
      (cutLayout sizes tmpl.bytes).length = sizes.length := fun sizes => by
    simpa using congrArg List.length (map_field_cutLayout sizes tmpl.bytes)
  exact {
    bytes := by
      rw [render_frozen hdist (List.Subset.refl _), flatMap_cells_cutLayout, ← h.total,
        List.take_length]
    distinct := hdist
    hsLen := hfield h.hsLen
    random := hfield h.random
    sessionId := hfield h.sessionId
    keyShare := hfield h.keyShare
    extsLen := hfield h.extsLen
    sniExtLen := hfield h.sniExtLen
    sniListLen := hfield h.sniListLen
    sniHostLen := hfield h.sniHostLen
    host := hfield h.host
    behind := fun f hf => by
      rw [hbefore, hoff]
      exact h.behind f (filterMap_field_cutLayout sizes tmpl.bytes ▸ hf)
    fixed := fun f hf => (hbefore f _).not.mpr (h.fixed f hf)
    keyShare_behind := (hbefore _ _).mpr h.keyShare_behind
    regions := fun p hp => hfield (h.regions p hp)
    point := fun hne => hfield (h.point hne)
    mlkem := fun hne => hfield (h.mlkem hne)
    aead := fun hne => hfield (h.aead hne)
    grease := fun p hp => hfield (h.grease p hp)
    padding := fun hne => by
      obtain ⟨hat, hhost, hlast⟩ := h.padding hne
      refine ⟨hfield hat, (hbefore _ _).mpr hhost, ?_⟩
      rw [before_cutLayout, hlength, hlength, hlast]
    ech := fun hne => by
      obtain ⟨hext, hlen, hpayload, hbase, hfew, hahead⟩ := h.ech hne
      exact ⟨hfield hext, hfield hlen, hfield hpayload, hbase, hfew,
        fun f hf => (hbefore f _).not.mpr (hahead f hf)⟩
    exclusive := h.exclusive }

/-- `chrome_template`, cut at its fields. -/
def chromeLayout : HelloLayout :=
  cutLayout [
    (none, 1), (some .hsLen, 3), (none, 2), (some .random, 32), (none, 1), (some .sessionId, 32),
    (none, 2), (some (.grease 0), 2), (none, 32), (some .extsLen, 2), (some (.grease 1), 2),
    (none, 4), (some .sniExtLen, 2), (some .sniListLen, 2), (none, 1), (some .sniHostLen, 2),
    (some .host, 15), (none, 58), (some (.grease 2), 2), (none, 7), (some .mlkem, 1184),
    (some (.region 0), 32), (none, 4), (some .keyShare, 32), (none, 22), (some (.grease 3), 2),
    (none, 13), (some (.grease 4), 2), (none, 28), (some .echExtLen, 2), (none, 3), (some .aead, 2),
    (some (.region 2), 1), (none, 2), (some (.region 1), 32), (some .echPayloadLen, 2),
    (some .echPayload, 144), (none, 4), (some (.grease 5), 2), (none, 3)] chromeTemplate

theorem described_chrome : Described clienthelloChrome chromeLayout := Sized.described {
  total := by decide +kernel
  distinct := by decide
  hsLen := by decide
  random := by decide
  sessionId := by decide
  keyShare := by decide
  extsLen := by decide
  sniExtLen := by decide
  sniListLen := by decide
  sniHostLen := by decide
  host := by decide
  behind := by decide
  fixed := by decide
  keyShare_behind := by decide
  regions := by decide
  point := by decide
  mlkem := by decide
  aead := by decide
  grease := by decide
  padding := by decide
  ech := by decide
  exclusive := by decide }

/-- `firefox_template`, cut at its fields. -/
def firefoxLayout : HelloLayout :=
  cutLayout [
    (none, 1), (some .hsLen, 3), (none, 2), (some .random, 32), (none, 1), (some .sessionId, 32),
    (none, 38), (some .extsLen, 2), (none, 2), (some .sniExtLen, 2), (some .sniListLen, 2),
    (none, 1), (some .sniHostLen, 2), (some .host, 15), (none, 88), (some .keyShare, 32), (none, 4),
    (some .point, 65), (none, 56), (some .aead, 2), (some (.region 2), 1), (none, 2),
    (some (.region 0), 32), (none, 2), (some (.region 1), 239)] firefoxTemplate

theorem described_firefox : Described clienthelloFirefox firefoxLayout := Sized.described {
  total := by decide +kernel
  distinct := by decide
  hsLen := by decide
  random := by decide
  sessionId := by decide
  keyShare := by decide
  extsLen := by decide
  sniExtLen := by decide
  sniListLen := by decide
  sniHostLen := by decide
  host := by decide
  behind := by decide
  fixed := by decide
  keyShare_behind := by decide
  regions := by decide
  point := by decide
  mlkem := by decide
  aead := by decide
  grease := by decide
  padding := by decide
  ech := by decide
  exclusive := by decide }

/-- `safari_template`, cut at its fields. -/
def safariLayout : HelloLayout :=
  cutLayout [
    (none, 1), (some .hsLen, 3), (none, 2), (some .random, 32), (none, 1), (some .sessionId, 32),
    (none, 2), (some (.grease 0), 2), (none, 42), (some .extsLen, 2), (some (.grease 1), 2),
    (none, 4), (some .sniExtLen, 2), (some .sniListLen, 2), (none, 1), (some .sniHostLen, 2),
    (some .host, 15), (none, 15), (some (.grease 2), 2), (none, 79), (some (.grease 3), 2),
    (none, 7), (some .keyShare, 32), (none, 11), (some (.grease 4), 2), (none, 15),
    (some (.grease 5), 2), (none, 3), (some .padding, 195)] safariTemplate

theorem described_safari : Described clienthelloSafari safariLayout := Sized.described {
  total := by decide +kernel
  distinct := by decide
  hsLen := by decide
  random := by decide
  sessionId := by decide
  keyShare := by decide
  extsLen := by decide
  sniExtLen := by decide
  sniListLen := by decide
  sniHostLen := by decide
  host := by decide
  behind := by decide
  fixed := by decide
  keyShare_behind := by decide
  regions := by decide
  point := by decide
  mlkem := by decide
  aead := by decide
  grease := by decide
  padding := by decide
  ech := by decide
  exclusive := by decide }

end Cloak
