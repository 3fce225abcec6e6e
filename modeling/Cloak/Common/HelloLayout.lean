import Cloak.Common.ClientHello
import Cloak.Lib.Layout
import Mathlib.Tactic.Positivity
import Mathlib.Tactic.SplitIfs

set_option autoImplicit false

/-! # What the builder writes

A template is cut into fields and bytes that never change (`Described`), and the build is a row of
updates of fields: `build_spec` says what each field of the message is in the end. The placeholder
name and the fields behind it are where `shift_off` has them because nothing but the name changes its
length before the last phase. -/

namespace Cloak

open Lib Layout

/-- The parts of a template that a build changes. -/
inductive HelloField where
  | hsLen
  | random
  | sessionId
  | extsLen
  | sniExtLen
  | sniListLen
  | sniHostLen
  | host
  | keyShare
  | region (i : Nat)
  | point
  | mlkem
  | aead
  | grease (i : Nat)
  | echExtLen
  | echPayloadLen
  | echPayload
  | padding
deriving DecidableEq, Repr

abbrev HelloLayout := List (Chunk HelloField UInt8)

/-- The field `f` of the template lies at `off` and has `len` bytes. -/
def FieldAt (L : HelloLayout) (f : HelloField) (off len : Nat) : Prop :=
  Has L f ∧ offset (frozen L) L f = off ∧ (frozen L f).length = len

instance (L : HelloLayout) (f : HelloField) (off len : Nat) : Decidable (FieldAt L f off len) :=
  inferInstanceAs (Decidable (_ ∧ _))

/-- The bytes a region is filled with. -/
def HelloRegion.size (r : HelloRegion) : Nat :=
  match r.kind with
  | .x25519 => 32
  | .random => r.len

/-- The layout `L` is that of the template, every offset of the template is that of a field, and no
    two resizings meet. -/
structure Described (tmpl : HelloTemplate) (L : HelloLayout) : Prop where
  bytes : render (frozen L) L = tmpl.bytes
  distinct : Distinct L
  hsLen : FieldAt L .hsLen 1 3
  random : FieldAt L .random tmpl.randomOff 32
  sessionId : FieldAt L .sessionId tmpl.sessionIdOff 32
  keyShare : FieldAt L .keyShare tmpl.keyshareOff 32
  extsLen : FieldAt L .extsLen tmpl.extensionsLengthOff 2
  sniExtLen : FieldAt L .sniExtLen tmpl.sniExtLengthOff 2
  sniListLen : FieldAt L .sniListLen tmpl.sniListLengthOff 2
  sniHostLen : FieldAt L .sniHostLen tmpl.sniHostLengthOff 2
  host : FieldAt L .host tmpl.sniHostOff tmpl.sniHostLen
  behind : ∀ f ∈ L.filterMap Chunk.field,
    Has (before L f) .host ↔ tmpl.sniHostOff < offset (frozen L) L f
  fixed : ∀ f ∈ [HelloField.hsLen, .random, .sessionId, .extsLen, .sniExtLen, .sniListLen,
    .sniHostLen], ¬ Has (before L f) .host
  keyShare_behind : Has (before L .keyShare) .host
  regions : ∀ p ∈ tmpl.randomRegions.zipIdx, FieldAt L (.region p.2) p.1.off p.1.size
  point : tmpl.secp256r1KeyshareOff ≠ 0 → FieldAt L .point tmpl.secp256r1KeyshareOff 65
  mlkem : tmpl.mlkemEkOff ≠ 0 → FieldAt L .mlkem tmpl.mlkemEkOff 1184
  aead : tmpl.aeadIdOff ≠ 0 → FieldAt L .aead tmpl.aeadIdOff 2
  grease : ∀ p ∈ tmpl.greasePositions.zipIdx, FieldAt L (.grease p.2) p.1.1 2
  padding : tmpl.paddingExtOff ≠ 0 → FieldAt L .padding tmpl.paddingExtOff (4 + tmpl.paddingDataLen) ∧
    Has (before L .padding) .host ∧ L.length = (before L .padding).length + 1
  ech : tmpl.echPayloadCandidateLens ≠ [] → FieldAt L .echExtLen tmpl.echExtLenOff 2 ∧
    FieldAt L .echPayloadLen tmpl.echPayloadLenOff 2 ∧
    FieldAt L .echPayload tmpl.echPayloadOff tmpl.baseEchPayloadLen ∧
    (∀ len ∈ tmpl.echPayloadCandidateLens, tmpl.baseEchPayloadLen ≤ len) ∧
    tmpl.echPayloadCandidateLens.length < 2 ^ 32 ∧
    ∀ f ∈ [HelloField.hsLen, .extsLen, .echExtLen, .echPayloadLen], ¬ Has (before L f) .echPayload
  exclusive : tmpl.paddingExtOff = 0 ∨ tmpl.echPayloadCandidateLens = []

namespace HelloTemplate

variable {tmpl : HelloTemplate} {L : HelloLayout} {name : List UInt8} {d : HelloDraws}
  {ρ : HelloField → List UInt8} {out s : List UInt8} {f : HelloField} {off len : Nat}

/-! ## Writing fields -/

/-- The fields right after the splice. -/
def spliced (L : HelloLayout) (name : List UInt8) : HelloField → List UInt8 :=
  Function.update (frozen L) .host name

/-- The buffer holds the message with the fields `ρ`, all as long as in `ρ₀`. -/
structure Holds (L : HelloLayout) (ρ₀ : HelloField → List UInt8) (cap : Nat)
    (ρ : HelloField → List UInt8) (out : List UInt8) : Prop where
  split : ∃ rest, out = render ρ L ++ rest
  length : out.length = cap
  same : ∀ f, (ρ f).length = (ρ₀ f).length

variable {cap : Nat} {ρ₀ : HelloField → List UInt8}

/-- `shift_off` is where the field of a template offset has come to. -/
theorem offset_spliced (hd : Described tmpl L) (hf : FieldAt L f off len) :
    offset (spliced L name) L f = tmpl.shiftOff name off := by
  obtain ⟨hhas, hoff, -⟩ := hf
  obtain ⟨-, -, hhost⟩ := hd.host
  have hmem : f ∈ L.filterMap Chunk.field := by
    obtain ⟨c, hc, hfield⟩ := List.mem_map.mp hhas
    exact List.mem_filterMap.mpr ⟨c, hc, hfield⟩
  have hbehind := hd.behind f hmem
  rw [hoff] at hbehind
  by_cases hhas' : Has (before L f) .host
  · have hmove := offset_update (ρ := frozen L) (s := name) hd.distinct hhas'
    rw [hoff, hhost] at hmove
    rw [shiftOff, if_pos (hbehind.mp hhas'), sniDelta, spliced]
    omega
  · rw [shiftOff, if_neg fun h => hhas' (hbehind.mpr h), spliced, offset_update_of_not_has hhas', hoff]

/-- Writing a field where it lies updates it. -/
theorem Holds.write (hd : Distinct L) (h : Holds L ρ₀ cap ρ out) (hf : Has L f)
    (hoff : off = offset ρ₀ L f) (hlen : s.length = (ρ f).length) :
    Holds L ρ₀ cap (Function.update ρ f s) (patch out off s) := by
  obtain ⟨rest, hout⟩ := h.split
  have hoff' : off = offset ρ L f := hoff.trans (offset_congr (fun g => (h.same g).symm) L f)
  have hpatch : patch out off s = render (Function.update ρ f s) L ++ rest := by
    rw [hout, hoff', patch_render hd hf hlen]
  refine ⟨⟨rest, hpatch⟩, ?_, fun g => ?_⟩
  · have hsame := length_render_update (ρ := ρ) (s := s) hd hf
    have hcap := h.length
    rw [hout, List.length_append] at hcap
    rw [hpatch, List.length_append]
    omega
  · by_cases hg : g = f
    · subst hg
      rw [Function.update_self, hlen, h.same]
    · rw [Function.update_of_ne hg, h.same]

theorem Holds.length_field (h : Holds L (spliced L name) cap ρ out) (hf : FieldAt L f off len)
    (hne : f ≠ .host) : (ρ f).length = len := by
  rw [h.same, spliced, Function.update_of_ne hne]
  exact hf.2.2

theorem shiftOff_fixed (hd : Described tmpl L) (hf : FieldAt L f off len)
    (hfixed : f ∈ [HelloField.hsLen, .random, .sessionId, .extsLen, .sniExtLen, .sniListLen,
      .sniHostLen]) : tmpl.shiftOff name off = off := by
  obtain ⟨c, hc, hfield⟩ := List.mem_map.mp hf.1
  have hbehind := hd.behind f (List.mem_filterMap.mpr ⟨c, hc, hfield⟩)
  rw [hf.2.1] at hbehind
  exact if_neg fun hlt => hd.fixed f hfixed (hbehind.mpr hlt)

/-- A big-endian number moved by `delta`. -/
def moved (n : Nat) (bs : List UInt8) (delta : Int) : List UInt8 :=
  beBytes n (((beNat bs : Int) + delta) % 256 ^ n).toNat

@[simp] theorem length_moved (n : Nat) (bs : List UInt8) (delta : Int) :
    (moved n bs delta).length = n := length_beBytes _ _

theorem moved_moved (n : Nat) (bs : List UInt8) (delta delta' : Int) :
    moved n (moved n bs delta) delta' = moved n bs (delta + delta') := by
  have hpos : (0 : Int) < 256 ^ n := by positivity
  have hlt := Int.emod_lt_of_pos ((beNat bs : Int) + delta) hpos
  have hnonneg := Int.emod_nonneg ((beNat bs : Int) + delta) hpos.ne'
  have hnat : beNat (beBytes n (((beNat bs : Int) + delta) % 256 ^ n).toNat) =
      (((beNat bs : Int) + delta) % 256 ^ n).toNat := by
    refine beNat_beBytes _ _ ?_
    rw [Int.toNat_lt hnonneg]
    exact_mod_cast hlt
  rw [moved, moved, moved, hnat, Int.toNat_of_nonneg hnonneg, Int.emod_add_emod, add_assoc]

/-- A length is read from its field before it is moved. -/
theorem Holds.move {n : Nat} (hd : Distinct L) (h : Holds L ρ₀ cap ρ out) (hf : Has L f)
    (hoff : off = offset ρ₀ L f) (hlen : (ρ f).length = n) (delta : Int) :
    Holds L ρ₀ cap (Function.update ρ f (moved n (ρ f) delta)) (patchBeDelta n out off delta) := by
  obtain ⟨rest, hout⟩ := h.split
  have hslice : slice out off n = ρ f := by
    have hoff' : off = offset ρ L f := hoff.trans (offset_congr (fun g => (h.same g).symm) L f)
    rw [hoff', hout, ← hlen]
    exact slice_render hd hf
  have hpatch : patchBeDelta n out off delta = patch out off (moved n (ρ f) delta) := by
    rw [patchBeDelta, hslice, moved]
  rw [hpatch]
  exact h.write hd hf hoff (by rw [length_moved, hlen])

/-! ## The splice -/

theorem holds_spliceSni (hd : Described tmpl L)
    (hcap : tmpl.lenAfterSniShift name ≤ (out.length : Int)) :
    Holds L (spliced L name) out.length (spliced L name) (tmpl.spliceSni name out) := by
  obtain ⟨hhas, hoff, hlen⟩ := hd.host
  have hsplice := splice_render (s := name) (ρ := frozen L) hd.distinct hhas
  rw [hoff, hlen, hd.bytes] at hsplice
  have htake : (tmpl.bytes.take tmpl.sniHostOff).length = tmpl.sniHostOff := by
    obtain ⟨B, -, hsplit⟩ := render_split hd.distinct hhas
    rw [← hd.bytes, hsplit, ← hoff, offset, List.take_left]
  have htotal := length_render_update (s := name) (ρ := frozen L) hd.distinct hhas
  rw [hlen, hd.bytes, ← hsplice] at htotal
  have hwhole : tmpl.spliceSni name out = tmpl.bytes.take tmpl.sniHostOff ++ (name ++
      (tmpl.bytes.drop (tmpl.sniHostOff + tmpl.sniHostLen) ++
        ((out.drop tmpl.sniHostOff).drop name.length).drop
          (tmpl.bytes.drop (tmpl.sniHostOff + tmpl.sniHostLen)).length)) := by
    have hfirst := patch_append_length (tmpl.bytes.take tmpl.sniHostOff)
      (out.drop tmpl.sniHostOff) name
    have hsecond := patch_append_length (tmpl.bytes.take tmpl.sniHostOff ++ name)
      ((out.drop tmpl.sniHostOff).drop name.length)
      (tmpl.bytes.drop (tmpl.sniHostOff + tmpl.sniHostLen))
    rw [htake] at hfirst
    rw [List.length_append, htake, List.append_assoc, List.append_assoc] at hsecond
    rw [spliceSni, patch_zero, htake, hfirst, hsecond]
  refine ⟨⟨((out.drop tmpl.sniHostOff).drop name.length).drop
    (tmpl.bytes.drop (tmpl.sniHostOff + tmpl.sniHostLen)).length, ?_⟩, ?_, fun _ => rfl⟩
  · rw [hwhole, spliced, ← hsplice, List.append_assoc, List.append_assoc]
  · simp only [lenAfterSniShift, sniDelta] at hcap
    simp only [List.length_append] at htotal
    rw [hwhole]
    simp only [List.length_append, List.length_drop, List.length_take] at htotal htake ⊢
    omega

/-! ## The fields of the first phases -/

/-- The fields `done` as `w` has them, the others as `ρ` has them. -/
def partly (w ρ : HelloField → List UInt8) (done : List HelloField) : HelloField → List UInt8 :=
  fun f => if f ∈ done then w f else ρ f

variable {w : HelloField → List UInt8} {done : List HelloField}

theorem update_partly (w ρ : HelloField → List UInt8) (done : List HelloField) (f : HelloField) :
    Function.update (partly w ρ done) f (w f) = partly w ρ (f :: done) := by
  funext g
  by_cases hg : g = f
  · subst hg
    simp [partly]
  · simp [partly, hg]

/-- One more field is written. -/
theorem Holds.step (hd : Described tmpl L)
    (h : Holds L (spliced L name) cap (partly w (spliced L name) done) out) (hf : FieldAt L f off len)
    (hne : f ≠ .host) (hlen : (w f).length = len) :
    Holds L (spliced L name) cap (partly w (spliced L name) (f :: done))
      (patch out (tmpl.shiftOff name off) (w f)) := by
  rw [← update_partly]
  exact h.write hd.distinct hf.1 (offset_spliced hd hf).symm
    (hlen.trans (h.length_field hf hne).symm)

/-- One more length is moved. -/
theorem Holds.stepDelta {delta : Int} (hd : Described tmpl L)
    (h : Holds L (spliced L name) cap (partly w (spliced L name) done) out) (hf : FieldAt L f off len)
    (hne : f ≠ .host) (hdone : f ∉ done) (hw : w f = moved len (frozen L f) delta) :
    Holds L (spliced L name) cap (partly w (spliced L name) (f :: done))
      (patchBeDelta len out (tmpl.shiftOff name off) delta) := by
  have hold : partly w (spliced L name) done f = frozen L f := by
    rw [partly, if_neg hdone, spliced, Function.update_of_ne hne]
  have hmove := h.move hd.distinct hf.1 (offset_spliced hd hf).symm (h.length_field hf hne) delta
  rw [hold, ← hw, update_partly] at hmove
  exact hmove

end HelloTemplate

/-! ## Inputs -/

/-- What a build is called with and what it draws, when no key generation fails. -/
structure HelloInputs where
  random : List UInt8
  sessionId : List UInt8
  keyShare : List UInt8
  name : List UInt8
  greaseSeed : GreaseRole → UInt8
  draws : HelloDraws
  random_length : random.length = 32
  sessionId_length : sessionId.length = 32
  keyShare_length : keyShare.length = 32
  name_pos : 0 < name.length
  name_le : name.length ≤ 253
  regionKey_isSome : ∀ i, (draws.regionKey i).isSome
  point_isSome : draws.point.isSome

namespace HelloInputs

open HelloTemplate

variable (a : HelloInputs) (tmpl : HelloTemplate) (L : HelloLayout)

/-- The contents of region `i`. -/
def regionFill (i : Nat) (r : HelloRegion) : List UInt8 :=
  match r.kind with
  | .x25519 => randomBytes ((a.draws.regionKey i).getD fun _ => 0) 32
  | .random => randomBytes (a.draws.regionBytes i) r.len

/-- The fields after the first three phases. -/
def written : HelloField → List UInt8
  | .hsLen => moved 3 (frozen L .hsLen) (tmpl.sniDelta a.name)
  | .extsLen => moved 2 (frozen L .extsLen) (tmpl.sniDelta a.name)
  | .sniExtLen => moved 2 (frozen L .sniExtLen) (tmpl.sniDelta a.name)
  | .sniListLen => moved 2 (frozen L .sniListLen) (tmpl.sniDelta a.name)
  | .sniHostLen => storeLen a.name.length
  | .host => a.name
  | .random => a.random
  | .sessionId => a.sessionId
  | .keyShare => a.keyShare
  | .region i =>
    match tmpl.randomRegions[i]? with
    | some r => a.regionFill i r
    | none => frozen L (.region i)
  | .point =>
    if tmpl.secp256r1KeyshareOff = 0 then frozen L .point
    else randomBytes (a.draws.point.getD fun _ => 0) 65
  | .mlkem =>
    if tmpl.mlkemEkOff = 0 then frozen L .mlkem else fillMlkem768Ek a.draws.coefficients a.draws.seed
  | .aead => if tmpl.aeadIdOff = 0 then frozen L .aead else storeLen (tmpl.aeadIdChoice a.draws)
  | .grease i =>
    match tmpl.greasePositions[i]? with
    | some p => storeBe16 (greaseValue a.greaseSeed p.2)
    | none => frozen L (.grease i)
  | f => frozen L f

variable {a tmpl L} {out : List UInt8} {cap : Nat} {done : List HelloField}

theorem length_regionFill (i : Nat) (r : HelloRegion) : (a.regionFill i r).length = r.size := by
  unfold regionFill HelloRegion.size
  split <;> exact length_randomBytes _ _

theorem length_fillMlkem768Ek (coefficients : Nat → Fin 3329) (seed : Nat → UInt8) :
    (fillMlkem768Ek coefficients seed).length = 1184 := by
  have hpack : ∀ c0 c1, (packCoefficients c0 c1).length = 3 := fun _ _ => rfl
  rw [fillMlkem768Ek, List.length_append, length_randomBytes, List.length_flatMap]
  simp only [hpack, List.map_const', List.sum_replicate_nat, List.length_range]
  rfl

/-- The lengths and the caller's fields of phase 1. -/
theorem holds_phase1 (hd : Described tmpl L)
    (h : Holds L (spliced L a.name) cap (partly (a.written tmpl L) (spliced L a.name) []) out) :
    Holds L (spliced L a.name) cap (partly (a.written tmpl L) (spliced L a.name) [.keyShare, .sessionId, .random,
      .sniHostLen, .sniListLen, .sniExtLen, .extsLen, .hsLen])
      (tmpl.writeFields a.random a.sessionId a.keyShare a.name
        (tmpl.patchSniLengths a.name out)) := by
  have h₁ := h.stepDelta hd hd.hsLen (by decide) (by decide) rfl
  have h₂ := h₁.stepDelta hd hd.extsLen (by decide) (by decide) rfl
  have h₃ := h₂.stepDelta hd hd.sniExtLen (by decide) (by decide) rfl
  have h₄ := h₃.stepDelta hd hd.sniListLen (by decide) (by decide) rfl
  have h₅ := h₄.step hd hd.sniHostLen (by decide) (length_beBytes _ _)
  have h₆ := h₅.step hd hd.random (by decide) a.random_length
  have h₇ := h₆.step hd hd.sessionId (by decide) a.sessionId_length
  have h₈ := h₇.step hd hd.keyShare (by decide) a.keyShare_length
  rw [shiftOff_fixed hd hd.hsLen (by decide), shiftOff_fixed hd hd.extsLen (by decide),
    shiftOff_fixed hd hd.sniExtLen (by decide), shiftOff_fixed hd hd.sniListLen (by decide),
    shiftOff_fixed hd hd.sniHostLen (by decide), shiftOff_fixed hd hd.random (by decide),
    shiftOff_fixed hd hd.sessionId (by decide)] at h₈
  have hshift : tmpl.shiftOff a.name tmpl.keyshareOff =
      ((tmpl.keyshareOff : Int) + tmpl.sniDelta a.name).toNat := by
    have hmem : HelloField.keyShare ∈ L.filterMap Chunk.field := by
      obtain ⟨c, hc, hfield⟩ := List.mem_map.mp hd.keyShare.1
      exact List.mem_filterMap.mpr ⟨c, hc, hfield⟩
    have hlt := (hd.behind _ hmem).mp hd.keyShare_behind
    rw [hd.keyShare.2.1] at hlt
    exact if_pos hlt
  rw [hshift] at h₈
  exact h₈

/-- The fields of phase 2. -/
theorem holds_fillRegions (hd : Described tmpl L) (regions : List HelloRegion) (i : Nat)
    (hregions : tmpl.randomRegions.drop i = regions)
    (h : Holds L (spliced L a.name) cap (partly (a.written tmpl L) (spliced L a.name) done) out) :
    ∃ out' done', tmpl.fillRegions a.name a.draws i regions out = some out' ∧
      Holds L (spliced L a.name) cap (partly (a.written tmpl L) (spliced L a.name) done') out' ∧
      ∀ f, f ∈ done' ↔ f ∈ done ∨ ∃ k < regions.length, f = .region (i + k) := by
  induction regions generalizing i out done with
  | nil => exact ⟨out, done, rfl, h, fun f => by simp⟩
  | cons r regions ih =>
    have hget : tmpl.randomRegions[i]? = some r := by
      rw [← List.head?_drop, hregions, List.head?_cons]
    have hrest : tmpl.randomRegions.drop (i + 1) = regions := by
      rw [← List.drop_drop, hregions, List.drop_one, List.tail_cons]
    have hf : FieldAt L (.region i) r.off r.size :=
      hd.regions (r, i) (List.mk_mem_zipIdx_iff_getElem?.mpr hget)
    have hw : a.written tmpl L (.region i) = a.regionFill i r := by
      simp only [written, hget]
    have hstep := h.step hd hf (by simp) (by rw [hw, length_regionFill])
    rw [hw] at hstep
    have hfill : tmpl.fillRegions a.name a.draws i (r :: regions) out =
        tmpl.fillRegions a.name a.draws (i + 1) regions
          (patch out (tmpl.shiftOff a.name r.off) (a.regionFill i r)) := by
      rw [fillRegions, regionFill]
      cases r.kind with
      | x25519 =>
        obtain ⟨key, hkey⟩ := Option.isSome_iff_exists.mp (a.regionKey_isSome i)
        simp only [hkey, Option.getD_some]
      | random => rfl
    obtain ⟨out', done', hout', hholds, hdone⟩ := ih (i + 1) hrest hstep
    refine ⟨out', done', hfill.trans hout', hholds, fun f => ?_⟩
    rw [hdone, List.mem_cons]
    constructor
    · rintro ((rfl | hf) | ⟨k, hk, rfl⟩)
      · exact .inr ⟨0, Nat.succ_pos _, rfl⟩
      · exact .inl hf
      · exact .inr ⟨k + 1, Nat.succ_lt_succ hk, by rw [Nat.add_right_comm, Nat.add_assoc]⟩
    · rintro (hf | ⟨k, hk, rfl⟩)
      · exact .inl (.inr hf)
      · cases k with
        | zero => exact .inl (.inl rfl)
        | succ k => exact .inr ⟨k, Nat.lt_of_succ_lt_succ hk, by rw [Nat.add_right_comm, Nat.add_assoc]⟩

/-- The fields of phase 3d. -/
theorem holds_writeGrease (hd : Described tmpl L) (positions : List (Nat × GreaseRole)) (i : Nat)
    (hpositions : tmpl.greasePositions.drop i = positions)
    (h : Holds L (spliced L a.name) cap (partly (a.written tmpl L) (spliced L a.name) done) out) :
    ∃ done', Holds L (spliced L a.name) cap (partly (a.written tmpl L) (spliced L a.name) done')
        (positions.foldl (fun out pos => patch out (tmpl.shiftOff a.name pos.1)
          (storeBe16 (greaseValue a.greaseSeed pos.2))) out) ∧
      ∀ f, f ∈ done' ↔ f ∈ done ∨ ∃ k < positions.length, f = .grease (i + k) := by
  induction positions generalizing i out done with
  | nil => exact ⟨done, h, fun f => by simp⟩
  | cons p positions ih =>
    have hget : tmpl.greasePositions[i]? = some p := by
      rw [← List.head?_drop, hpositions, List.head?_cons]
    have hrest : tmpl.greasePositions.drop (i + 1) = positions := by
      rw [← List.drop_drop, hpositions, List.drop_one, List.tail_cons]
    have hf : FieldAt L (.grease i) p.1 2 :=
      hd.grease (p, i) (List.mk_mem_zipIdx_iff_getElem?.mpr hget)
    have hw : a.written tmpl L (.grease i) = storeBe16 (greaseValue a.greaseSeed p.2) := by
      simp only [written, hget]
    have hstep := h.step hd hf (by simp) (by rw [hw]; rfl)
    rw [hw] at hstep
    obtain ⟨done', hholds, hdone⟩ := ih (i + 1) hrest hstep
    refine ⟨done', hholds, fun f => ?_⟩
    rw [hdone, List.mem_cons]
    constructor
    · rintro ((rfl | hf) | ⟨k, hk, rfl⟩)
      · exact .inr ⟨0, Nat.succ_pos _, rfl⟩
      · exact .inl hf
      · exact .inr ⟨k + 1, Nat.succ_lt_succ hk, by rw [Nat.add_right_comm, Nat.add_assoc]⟩
    · rintro (hf | ⟨k, hk, rfl⟩)
      · exact .inl (.inr hf)
      · cases k with
        | zero => exact .inl (.inl rfl)
        | succ k => exact .inr ⟨k, Nat.lt_of_succ_lt_succ hk, by rw [Nat.add_right_comm, Nat.add_assoc]⟩

/-- The optional fields of phase 3. -/
theorem holds_optional (hd : Described tmpl L)
    (h : Holds L (spliced L a.name) cap (partly (a.written tmpl L) (spliced L a.name) done) out) :
    ∃ out' done', tmpl.writePoint a.name a.draws out = some out' ∧
      Holds L (spliced L a.name) cap (partly (a.written tmpl L) (spliced L a.name) done')
        (tmpl.writeAeadId a.name a.draws (tmpl.writeMlkem a.name a.draws out')) ∧
      ∀ f, f ∈ done' ↔ f ∈ done ∨ (tmpl.secp256r1KeyshareOff ≠ 0 ∧ f = .point) ∨
        (tmpl.mlkemEkOff ≠ 0 ∧ f = .mlkem) ∨ (tmpl.aeadIdOff ≠ 0 ∧ f = .aead) := by
  obtain ⟨out₁, done₁, hpoint, h₁, hdone₁⟩ : ∃ out₁ done₁,
      tmpl.writePoint a.name a.draws out = some out₁ ∧
      Holds L (spliced L a.name) cap (partly (a.written tmpl L) (spliced L a.name) done₁) out₁ ∧
      ∀ f, f ∈ done₁ ↔ f ∈ done ∨ (tmpl.secp256r1KeyshareOff ≠ 0 ∧ f = .point) := by
    unfold writePoint
    split_ifs with h0
    · exact ⟨out, done, rfl, h, fun f => by simp [h0]⟩
    · obtain ⟨point, hpoint⟩ := Option.isSome_iff_exists.mp a.point_isSome
      have hw : a.written tmpl L .point = randomBytes point 65 := by
        simp only [written, h0, if_false, hpoint, Option.getD_some]
      have hstep := h.step hd (hd.point h0) (by decide) (by rw [hw, length_randomBytes])
      rw [hw] at hstep
      exact ⟨_, _, by rw [hpoint], hstep, fun f => by simp [h0, or_comm]⟩
  obtain ⟨done₂, h₂, hdone₂⟩ : ∃ done₂,
      Holds L (spliced L a.name) cap (partly (a.written tmpl L) (spliced L a.name) done₂)
        (tmpl.writeMlkem a.name a.draws out₁) ∧
      ∀ f, f ∈ done₂ ↔ f ∈ done₁ ∨ (tmpl.mlkemEkOff ≠ 0 ∧ f = .mlkem) := by
    unfold writeMlkem
    split_ifs with h0
    · exact ⟨done₁, h₁, fun f => by simp [h0]⟩
    · have hw : a.written tmpl L .mlkem = fillMlkem768Ek a.draws.coefficients a.draws.seed := by
        simp only [written, h0, if_false]
      have hstep := h₁.step hd (hd.mlkem h0) (by decide)
        (by rw [hw, length_fillMlkem768Ek])
      rw [hw] at hstep
      exact ⟨_, hstep, fun f => by simp [h0, or_comm]⟩
  obtain ⟨done₃, h₃, hdone₃⟩ : ∃ done₃,
      Holds L (spliced L a.name) cap (partly (a.written tmpl L) (spliced L a.name) done₃)
        (tmpl.writeAeadId a.name a.draws (tmpl.writeMlkem a.name a.draws out₁)) ∧
      ∀ f, f ∈ done₃ ↔ f ∈ done₂ ∨ (tmpl.aeadIdOff ≠ 0 ∧ f = .aead) := by
    unfold writeAeadId
    split_ifs with h0
    · exact ⟨done₂, h₂, fun f => by simp [h0]⟩
    · have hw : a.written tmpl L .aead = storeLen (tmpl.aeadIdChoice a.draws) := by
        simp only [written, h0, if_false]
      have hstep := h₂.step hd (hd.aead h0) (by decide) (by rw [hw]; exact length_beBytes _ _)
      rw [hw] at hstep
      exact ⟨_, hstep, fun f => by simp [h0, or_comm]⟩
  exact ⟨out₁, done₃, hpoint, h₃, fun f => by rw [hdone₃, hdone₂, hdone₁, or_assoc, or_assoc]⟩

/-- The first three phases. -/
theorem holds_written (hd : Described tmpl L)
    (hcap : tmpl.lenAfterSniShift a.name ≤ (out.length : Int)) :
    ∃ out₁ out₂, tmpl.fillRegions a.name a.draws 0 tmpl.randomRegions
        (tmpl.writeFields a.random a.sessionId a.keyShare a.name
          (tmpl.patchSniLengths a.name (tmpl.spliceSni a.name out))) = some out₁ ∧
      tmpl.writePoint a.name a.draws out₁ = some out₂ ∧
      Holds L (spliced L a.name) out.length (a.written tmpl L)
        (tmpl.writeGrease a.name a.greaseSeed
          (tmpl.writeAeadId a.name a.draws (tmpl.writeMlkem a.name a.draws out₂))) := by
  have h₁ := holds_phase1 (a := a) hd (holds_spliceSni hd hcap)
  obtain ⟨out₁, done₁, hregions, h₂, hdone₁⟩ := holds_fillRegions hd _ 0 List.drop_zero h₁
  obtain ⟨out₂, done₂, hpoint, h₃, hdone₂⟩ := holds_optional hd h₂
  obtain ⟨done₃, h₄, hdone₃⟩ := holds_writeGrease hd _ 0 List.drop_zero h₃
  have hall : partly (a.written tmpl L) (spliced L a.name) done₃ = a.written tmpl L := by
    funext f
    by_cases hf : f ∈ done₃
    · exact if_pos hf
    · -- a field that was not written is the template's own
      refine (if_neg hf).trans ?_
      have hnot := hf
      rw [hdone₃, hdone₂, hdone₁] at hnot
      cases f with
      | host => rfl
      | echExtLen | echPayloadLen | echPayload | padding => rfl
      | region i =>
        have hnone : tmpl.randomRegions[i]? = none := by
          rw [List.getElem?_eq_none_iff]
          by_contra hlt
          exact hnot (.inl (.inl (.inr ⟨i, by omega, by rw [Nat.zero_add]⟩)))
        simp only [written, hnone]
        rfl
      | grease i =>
        have hnone : tmpl.greasePositions[i]? = none := by
          rw [List.getElem?_eq_none_iff]
          by_contra hlt
          exact hnot (.inr ⟨i, by omega, by rw [Nat.zero_add]⟩)
        simp only [written, hnone]
        rfl
      | point =>
        have h0 : tmpl.secp256r1KeyshareOff = 0 := by
          by_contra h0
          exact hnot (.inl (.inr (.inl ⟨h0, rfl⟩)))
        simp only [written, h0, if_true]
        rfl
      | mlkem =>
        have h0 : tmpl.mlkemEkOff = 0 := by
          by_contra h0
          exact hnot (.inl (.inr (.inr (.inl ⟨h0, rfl⟩))))
        simp only [written, h0, if_true]
        rfl
      | aead =>
        have h0 : tmpl.aeadIdOff = 0 := by
          by_contra h0
          exact hnot (.inl (.inr (.inr (.inr ⟨h0, rfl⟩))))
        simp only [written, h0, if_true]
        rfl
      | _ => exact absurd (.inl (.inl (.inl (by decide)))) hnot
  rw [hall] at h₄
  exact ⟨out₁, out₂, hregions, hpoint, h₄⟩

/-! ## The last phases -/

variable (a tmpl L)

/-- The padding extension, if there is one. -/
def newPadding : List UInt8 :=
  if tmpl.newPadLen a.name = 0 then []
  else storeLen 0x0015 ++ (storeLen (tmpl.newPadLen a.name) ++
    List.replicate (tmpl.newPadLen a.name) 0)

/-- The fields of the finished message. -/
def settled : HelloField → List UInt8
  | .hsLen => moved 3 (frozen L .hsLen)
      (tmpl.sniDelta a.name + (tmpl.padDelta a.name + tmpl.echPayloadDelta a.draws))
  | .extsLen => moved 2 (frozen L .extsLen)
      (tmpl.sniDelta a.name + (tmpl.padDelta a.name + tmpl.echPayloadDelta a.draws))
  | .echExtLen =>
    if tmpl.echPayloadCandidateLens = [] then frozen L .echExtLen
    else moved 2 (frozen L .echExtLen) (tmpl.echPayloadDelta a.draws)
  | .echPayloadLen =>
    if tmpl.echPayloadCandidateLens = [] then frozen L .echPayloadLen
    else storeLen (tmpl.chosenEchPayloadLen a.draws)
  | .echPayload =>
    if tmpl.echPayloadCandidateLens = [] then frozen L .echPayload
    else randomBytes a.draws.echPayload (tmpl.chosenEchPayloadLen a.draws)
  | .padding => if tmpl.paddingExtOff = 0 then frozen L .padding else a.newPadding tmpl
  | f => a.written tmpl L f

variable {a tmpl L}

theorem length_render_holds {ρ : HelloField → List UInt8} (hd : Described tmpl L)
    (h : Holds L (spliced L a.name) cap ρ out) :
    ((render ρ L).length : Int) = tmpl.lenAfterSniShift a.name := by
  have hsame := length_render_congr h.same L
  have hupdate := length_render_update (s := a.name) (ρ := frozen L) hd.distinct hd.host.1
  rw [hd.bytes, hd.host.2.2] at hupdate
  simp only [lenAfterSniShift, sniDelta]
  rw [hsame, spliced]
  omega

theorem offset_fixed {f : HelloField} {off len : Nat} (hd : Described tmpl L)
    (hf : FieldAt L f off len) (hfixed : f ∈ [HelloField.hsLen, .random, .sessionId, .extsLen,
      .sniExtLen, .sniListLen, .sniHostLen]) : off = offset (spliced L a.name) L f := by
  rw [offset_spliced hd hf, shiftOff_fixed hd hf hfixed]

theorem echPayloadDelta_eq_zero (h : tmpl.echPayloadCandidateLens = []) (d : HelloDraws) :
    tmpl.echPayloadDelta d = 0 := if_pos h

theorem padDelta_eq_zero (h : tmpl.paddingExtOff = 0) (name : List UInt8) : tmpl.padDelta name = 0 :=
  if_pos h

/-- The writes of the padding extension, behind `xs`. -/
theorem patch_newPadding (xs ys : List UInt8) (n : Nat) :
    patch (patch (patch (xs ++ ys) xs.length (storeLen 0x0015)) (xs.length + 2) (storeLen n))
        (xs.length + 4) (List.replicate n 0) =
      xs ++ ((storeLen 0x0015 ++ (storeLen n ++ List.replicate n 0)) ++ ys.drop (4 + n)) := by
  have hfirst := patch_append_length xs ys (storeLen 0x0015)
  have hsecond := patch_append_length (xs ++ storeLen 0x0015) (ys.drop 2) (storeLen n)
  have hthird := patch_append_length (xs ++ (storeLen 0x0015 ++ storeLen n)) (ys.drop 4)
    (List.replicate n (0 : UInt8))
  have hlen : ∀ n, (storeLen n).length = 2 := fun n => length_beBytes 2 n
  simp only [List.length_append, List.append_assoc, hlen, List.length_replicate, List.drop_drop]
    at hfirst hsecond hthird
  rw [hfirst, hsecond, hthird]
  simp only [List.append_assoc]

/-- The lengths of phase 4: everything before the padding is then as it will be. -/
theorem holds_paddingLengths (hd : Described tmpl L) (hech : tmpl.echPayloadCandidateLens = [])
    (h : Holds L (spliced L a.name) cap (a.written tmpl L) out) :
    ∃ ρ, Holds L (spliced L a.name) cap ρ (patchBe16Delta (patchBe24Delta out 1
        (tmpl.padDelta a.name)) tmpl.extensionsLengthOff (tmpl.padDelta a.name)) ∧
      render ρ (before L .padding) = render (a.settled tmpl L) (before L .padding) := by
  have h₁ := h.move hd.distinct hd.hsLen.1 (offset_fixed hd hd.hsLen (by decide))
    (length_moved 3 _ _) (tmpl.padDelta a.name)
  have h₂ := h₁.move hd.distinct hd.extsLen.1 (offset_fixed hd hd.extsLen (by decide))
    (length_moved 2 _ _) (tmpl.padDelta a.name)
  refine ⟨_, h₂, render_congr fun f hf => ?_⟩
  cases f with
  | padding => exact absurd hf (not_has_before L _)
  | hsLen => simp [settled, written, moved_moved, echPayloadDelta_eq_zero hech]
  | extsLen => simp [settled, written, moved_moved, echPayloadDelta_eq_zero hech]
  | echExtLen | echPayloadLen | echPayload => simp [settled, written, hech]
  | _ => simp [settled]

/-- Phase 4, in a template with padding. -/
theorem take_resizePadding (hd : Described tmpl L) (hpad : tmpl.paddingExtOff ≠ 0)
    (h : Holds L (spliced L a.name) cap (a.written tmpl L) out)
    (hcap : tmpl.lenAfterSniShift a.name + tmpl.padDelta a.name ≤ (cap : Int)) :
    (tmpl.resizePadding a.name out).take (tmpl.lenAfterSniShift a.name + tmpl.padDelta a.name).toNat =
        render (a.settled tmpl L) L ∧
      (tmpl.resizePadding a.name out).length = cap ∧
      ((render (a.settled tmpl L) L).length : Int) =
        tmpl.lenAfterSniShift a.name + tmpl.padDelta a.name := by
  obtain ⟨hfield, -, hlast⟩ := hd.padding hpad
  obtain ⟨ρ, hρ, hfront⟩ := holds_paddingLengths hd (hd.exclusive.resolve_left hpad) h
  obtain ⟨cells, B, hL⟩ := split_at hfield.1
  obtain rfl : B = [] := by
    have hlen := congrArg List.length hL
    rw [List.length_append, List.length_cons] at hlen
    exact List.eq_nil_of_length_eq_zero (by omega)
  have hsplit : ∀ ρ : HelloField → List UInt8,
      render ρ L = render ρ (before L .padding) ++ ρ .padding := by
    intro ρ
    conv_lhs => rw [hL]
    rw [render_append, render_cons, render_nil, List.append_nil]
    rfl
  obtain ⟨rest, hout⟩ := hρ.split
  have hold : (ρ .padding).length = 4 + tmpl.paddingDataLen := hρ.length_field hfield (by decide)
  have htotal := length_render_holds hd hρ
  have hoff : tmpl.shiftOff a.name tmpl.paddingExtOff =
      (render (a.settled tmpl L) (before L .padding)).length := by
    rw [← offset_spliced hd hfield, ← hfront]
    exact (length_render_congr hρ.same _).symm
  have hcap' := hρ.length
  have hsettled : render (a.settled tmpl L) L =
      render (a.settled tmpl L) (before L .padding) ++ a.newPadding tmpl := by
    rw [hsplit]
    simp only [settled, hpad, if_false]
  rw [hsplit, hfront] at hout htotal
  rw [hsettled]
  generalize render (a.settled tmpl L) (before L .padding) = xs at hout htotal hoff ⊢
  rw [List.length_append, hold] at htotal
  have hdelta : tmpl.padDelta a.name = (tmpl.newExtTotal a.name : Int) - (4 + tmpl.paddingDataLen) :=
    if_neg hpad
  by_cases h0 : tmpl.newPadLen a.name = 0
  · -- the extension is omitted
    have hbuffer : tmpl.resizePadding a.name out = xs ++ (ρ .padding ++ rest) := by
      simp only [resizePadding, hpad, h0, if_true, if_false]
      rw [hout, List.append_assoc]
    have hnone : a.newPadding tmpl = [] := if_pos h0
    have htotal₀ : tmpl.newExtTotal a.name = 0 := if_pos h0
    rw [htotal₀] at hdelta
    have hlen : (tmpl.lenAfterSniShift a.name + tmpl.padDelta a.name).toNat = xs.length := by omega
    refine ⟨?_, ?_, ?_⟩
    · rw [hbuffer, hlen, List.take_left, hnone, List.append_nil]
    · rw [hbuffer, ← List.append_assoc, ← hout, hcap']
    · rw [hnone, List.append_nil]
      omega
  · have hbuffer : tmpl.resizePadding a.name out = xs ++ (a.newPadding tmpl ++
        (ρ .padding ++ rest).drop (4 + tmpl.newPadLen a.name)) := by
      simp only [resizePadding, hpad, h0, if_false]
      rw [hout, List.append_assoc, hoff, patch_newPadding, newPadding, if_neg h0]
    have hnew : (a.newPadding tmpl).length = 4 + tmpl.newPadLen a.name := by
      rw [newPadding, if_neg h0]
      simp only [List.length_append, storeLen, length_beBytes, List.length_replicate]
      omega
    have htotal₀ : tmpl.newExtTotal a.name = 4 + tmpl.newPadLen a.name := if_neg h0
    rw [htotal₀] at hdelta
    have hlen : (tmpl.lenAfterSniShift a.name + tmpl.padDelta a.name).toNat =
        (xs ++ a.newPadding tmpl).length := by
      rw [List.length_append, hnew]
      omega
    refine ⟨?_, ?_, ?_⟩
    · rw [hbuffer, hlen, ← List.append_assoc, List.take_left]
    · have hlen' := hcap'
      rw [hout] at hlen'
      rw [hbuffer]
      simp only [List.length_append, List.length_drop, hnew, hold] at hlen' ⊢
      omega
    · rw [List.length_append, hnew]
      omega

/-- The moves of phase 5: the tail behind the payload makes room for the new one. -/
theorem patch_tail (xs ys zs rest new : List UInt8)
    (hroom : (xs ++ (new ++ zs)).length ≤ (xs ++ (ys ++ (zs ++ rest))).length) :
    ∃ rest', patch (patch (xs ++ (ys ++ (zs ++ rest))) (xs.length + new.length) zs) xs.length new =
      xs ++ (new ++ (zs ++ rest')) ∧
      (xs ++ (new ++ (zs ++ rest'))).length = (xs ++ (ys ++ (zs ++ rest))).length := by
  have htake : (xs ++ (ys ++ (zs ++ rest))).take (xs.length + new.length) =
      xs ++ (ys ++ (zs ++ rest)).take new.length := List.take_length_add_append _
  simp only [List.length_append] at hroom
  have hfirst : patch (xs ++ (ys ++ (zs ++ rest))) (xs.length + new.length) zs =
      xs ++ ((ys ++ (zs ++ rest)).take new.length ++
        (zs ++ (ys ++ (zs ++ rest)).drop (new.length + zs.length))) := by
    rw [patch, htake, Nat.add_assoc, List.drop_length_add_append, List.append_assoc, List.append_assoc]
  have hlen : ((ys ++ (zs ++ rest)).take new.length).length = new.length := by
    rw [List.length_take]
    simp only [List.length_append]
    omega
  refine ⟨(ys ++ (zs ++ rest)).drop (new.length + zs.length), ?_, ?_⟩
  · rw [hfirst, patch_append_middle _ hlen.symm]
  · simp only [List.length_append, List.length_drop]
    omega

theorem chosenEchPayloadLen_mem (hne : tmpl.echPayloadCandidateLens ≠ [])
    (hlen : tmpl.echPayloadCandidateLens.length < 2 ^ 32) (d : HelloDraws) :
    tmpl.chosenEchPayloadLen d ∈ tmpl.echPayloadCandidateLens := by
  have hnat : (UInt32.ofNat tmpl.echPayloadCandidateLens.length).toNat =
      tmpl.echPayloadCandidateLens.length := by
    rw [UInt32.toNat_ofNat']
    exact Nat.mod_eq_of_lt hlen
  have hpos := List.length_pos_of_ne_nil hne
  have hlt := randomBelow_lt (UInt32.ofNat tmpl.echPayloadCandidateLens.length) d.echIndex
    (by rw [hnat]; exact hpos)
  rw [hnat] at hlt
  rw [chosenEchPayloadLen, List.getD_eq_getElem?_getD, List.getElem?_eq_getElem hlt, Option.getD_some]
  exact List.getElem_mem hlt

/-- The new payload is in its place. -/
theorem holds_resizeEchPayload (hd : Described tmpl L) (hech : tmpl.echPayloadCandidateLens ≠ [])
    (h : Holds L (spliced L a.name) cap (a.written tmpl L) out)
    (hcap : tmpl.lenAfterSniShift a.name + tmpl.echPayloadDelta a.draws ≤ (cap : Int)) :
    Holds L (Function.update (spliced L a.name) .echPayload
        (randomBytes a.draws.echPayload (tmpl.chosenEchPayloadLen a.draws))) cap
      (Function.update (a.written tmpl L) .echPayload
        (randomBytes a.draws.echPayload (tmpl.chosenEchPayloadLen a.draws)))
      (tmpl.resizeEchPayload a.name a.draws out) := by
  obtain ⟨-, -, hfield, hbase, hcount, -⟩ := hd.ech hech
  have hgrow := hbase _ (chosenEchPayloadLen_mem hech hcount a.draws)
  have hnew := length_randomBytes a.draws.echPayload (tmpl.chosenEchPayloadLen a.draws)
  have htotal := length_render_holds hd h
  obtain ⟨B, hB, hsplit⟩ := render_split hd.distinct hfield.1
  obtain ⟨rest, hout⟩ := h.split
  have hold : (a.written tmpl L .echPayload).length = tmpl.baseEchPayloadLen :=
    h.length_field hfield (by decide)
  have hoff : tmpl.shiftOff a.name tmpl.echPayloadOff =
      (render (a.written tmpl L) (before L .echPayload)).length := by
    rw [← offset_spliced hd hfield]
    exact (length_render_congr h.same _).symm
  have hdelta : tmpl.echPayloadDelta a.draws = (tmpl.chosenEchPayloadLen a.draws : Int) -
      tmpl.baseEchPayloadLen := if_neg hech
  have hlength := h.length
  have hrender : ∀ new, render (Function.update (a.written tmpl L) .echPayload new) L =
      render (a.written tmpl L) (before L .echPayload) ++ (new ++ render (a.written tmpl L) B) := by
    intro new
    rw [hsplit, render_update_of_not_has (not_has_before L _), render_update_of_not_has hB,
      Function.update_self]
  rw [hsplit] at hout htotal
  unfold resizeEchPayload
  dsimp only
  rw [hoff, hdelta]
  generalize hxs : render (a.written tmpl L) (before L .echPayload) = xs at *
  generalize hzs : render (a.written tmpl L) B = zs at *
  generalize hys : a.written tmpl L .echPayload = ys at *
  generalize hnew' : randomBytes a.draws.echPayload (tmpl.chosenEchPayloadLen a.draws) = new at *
  simp only [List.length_append] at htotal
  have hstart : (((xs.length + tmpl.baseEchPayloadLen : Nat) : Int) +
      ((tmpl.chosenEchPayloadLen a.draws : Int) - tmpl.baseEchPayloadLen)).toNat =
      xs.length + new.length := by omega
  have htail : slice out (xs.length + tmpl.baseEchPayloadLen)
      ((tmpl.lenAfterSniShift a.name).toNat - (xs.length + tmpl.baseEchPayloadLen)) = zs := by
    have hcount : (tmpl.lenAfterSniShift a.name).toNat - (xs.length + tmpl.baseEchPayloadLen) =
        zs.length := by omega
    have hsplit' := slice_append_middle rest
      (show (xs ++ ys).length = _ by rw [List.length_append, hold]) (rfl : zs.length = _)
    rw [hcount, hout]
    simpa only [List.append_assoc] using hsplit'
  rw [hout] at hlength
  rw [List.append_assoc, List.append_assoc] at hout hlength
  obtain ⟨rest', hpatch, hsame⟩ := patch_tail xs ys zs rest new (by
    rw [hlength]
    simp only [List.length_append]
    omega)
  rw [hstart, htail]
  refine ⟨⟨rest', ?_⟩, ?_, fun f => ?_⟩
  · rw [hout, hpatch, hrender, List.append_assoc, List.append_assoc]
  · rw [hout, hpatch, hsame, hlength]
  · by_cases hf : f = .echPayload
    · rw [hf, Function.update_self, Function.update_self]
    · rw [Function.update_of_ne hf, Function.update_of_ne hf, h.same]

/-- The lengths of phase 5: the fields are then as they will be. -/
theorem holds_patchEchLengths (hd : Described tmpl L) (hech : tmpl.echPayloadCandidateLens ≠ [])
    (h : Holds L (spliced L a.name) cap (a.written tmpl L) out)
    (hcap : tmpl.lenAfterSniShift a.name + tmpl.echPayloadDelta a.draws ≤ (cap : Int)) :
    ∃ ρ, Holds L (Function.update (spliced L a.name) .echPayload
        (randomBytes a.draws.echPayload (tmpl.chosenEchPayloadLen a.draws))) cap ρ
        (tmpl.patchEchLengths a.name a.draws (tmpl.resizeEchPayload a.name a.draws out)) ∧
      render ρ L = render (a.settled tmpl L) L := by
  have hpad : tmpl.paddingExtOff = 0 := hd.exclusive.resolve_right hech
  obtain ⟨hextLen, hpayloadLen, hfield, -, -, hnot⟩ := hd.ech hech
  have hoff : ∀ {f off len}, FieldAt L f off len →
      f ∈ [HelloField.hsLen, .extsLen, .echExtLen, .echPayloadLen] →
      tmpl.shiftOff a.name off = offset (Function.update (spliced L a.name) .echPayload
        (randomBytes a.draws.echPayload (tmpl.chosenEchPayloadLen a.draws))) L f := by
    intro f off len hf hmem
    rw [offset_update_of_not_has (hnot f hmem), offset_spliced hd hf]
  have hhsLen := hoff hd.hsLen (by decide)
  have hextsLen := hoff hd.extsLen (by decide)
  rw [shiftOff_fixed hd hd.hsLen (by decide)] at hhsLen
  rw [shiftOff_fixed hd hd.extsLen (by decide)] at hextsLen
  have h₀ := holds_resizeEchPayload hd hech h hcap
  have h₁ := h₀.move hd.distinct hd.hsLen.1 hhsLen (length_moved 3 _ _)
    (tmpl.echPayloadDelta a.draws)
  have h₂ := h₁.move hd.distinct hd.extsLen.1 hextsLen (length_moved 2 _ _)
    (tmpl.echPayloadDelta a.draws)
  have h₃ := h₂.move hd.distinct hextLen.1 (hoff hextLen (by decide)) hextLen.2.2
    (tmpl.echPayloadDelta a.draws)
  have h₄ := h₃.write (s := storeLen (tmpl.chosenEchPayloadLen a.draws)) hd.distinct hpayloadLen.1
    (hoff hpayloadLen (by decide)) (by
      rw [storeLen, length_beBytes]
      exact hpayloadLen.2.2.symm)
  refine ⟨_, h₄, render_congr fun f _ => ?_⟩
  cases f with
  | hsLen => simp [settled, written, moved_moved, padDelta_eq_zero hpad]
  | extsLen => simp [settled, written, moved_moved, padDelta_eq_zero hpad]
  | echExtLen | echPayloadLen | echPayload => simp [settled, written, hech]
  | padding => simp [settled, written, hpad]
  | _ => simp [settled]

/-- Phase 5, in a template with a choice of payload lengths. -/
theorem resizeEch_spec (hd : Described tmpl L) (hech : tmpl.echPayloadCandidateLens ≠ [])
    (h : Holds L (spliced L a.name) cap (a.written tmpl L) out)
    (hcap : tmpl.lenAfterSniShift a.name + tmpl.echPayloadDelta a.draws ≤ (cap : Int)) :
    ∃ out' rest, tmpl.resizeEch a.name a.draws out = some out' ∧ out'.length = cap ∧
      out' = render (a.settled tmpl L) L ++ rest ∧
      ((render (a.settled tmpl L) L).length : Int) =
        tmpl.lenAfterSniShift a.name + tmpl.echPayloadDelta a.draws := by
  obtain ⟨ρ, hρ, hrender⟩ := holds_patchEchLengths hd hech h hcap
  obtain ⟨-, -, hfield, -⟩ := hd.ech hech
  obtain ⟨rest, hrest⟩ := hρ.split
  rw [hrender] at hrest
  have htotal := length_render_holds hd h
  have hold : (a.written tmpl L .echPayload).length = tmpl.baseEchPayloadLen :=
    h.length_field hfield (by decide)
  refine ⟨_, rest, ?_, hρ.length, hrest, ?_⟩
  · -- the tail starts inside the message
    obtain ⟨B, -, hsplit⟩ := render_split hd.distinct hfield.1
    have hstart : tmpl.shiftOff a.name tmpl.echPayloadOff =
        (render (a.written tmpl L) (before L .echPayload)).length := by
      rw [← offset_spliced hd hfield]
      exact (length_render_congr h.same _).symm
    rw [hsplit, List.length_append, List.length_append, hold] at htotal
    rw [resizeEch, if_neg hech, if_neg (by omega)]
  · have hsame := length_render_congr hρ.same L
    have hsame' := length_render_congr h.same L
    have hmove := length_render_update (ρ := spliced L a.name)
      (s := randomBytes a.draws.echPayload (tmpl.chosenEchPayloadLen a.draws)) hd.distinct hfield.1
    rw [← h.same .echPayload, hold, length_randomBytes] at hmove
    have hdelta : tmpl.echPayloadDelta a.draws = (tmpl.chosenEchPayloadLen a.draws : Int) -
        tmpl.baseEchPayloadLen := if_neg hech
    rw [← hrender, hsame]
    omega

/-- Without padding and a choice of payload lengths the fields are settled after phase 3. -/
theorem render_settled_of_plain (hpad : tmpl.paddingExtOff = 0)
    (hech : tmpl.echPayloadCandidateLens = []) :
    render (a.settled tmpl L) L = render (a.written tmpl L) L := by
  refine render_congr fun f _ => ?_
  cases f with
  | hsLen => simp [settled, written, padDelta_eq_zero hpad, echPayloadDelta_eq_zero hech]
  | extsLen => simp [settled, written, padDelta_eq_zero hpad, echPayloadDelta_eq_zero hech]
  | echExtLen | echPayloadLen | echPayload => simp [settled, written, hech]
  | padding => simp [settled, written, hpad]
  | _ => simp [settled]

/-- The last two phases. -/
theorem resize_spec (hd : Described tmpl L)
    (h : Holds L (spliced L a.name) cap (a.written tmpl L) out)
    (hcap : tmpl.newLen a.name a.draws ≤ (cap : Int)) :
    ∃ out', tmpl.resizeEch a.name a.draws (tmpl.resizePadding a.name out) = some out' ∧
      out'.length = cap ∧ out'.take (render (a.settled tmpl L) L).length = render (a.settled tmpl L) L ∧
      ((render (a.settled tmpl L) L).length : Int) = tmpl.newLen a.name a.draws := by
  by_cases hech : tmpl.echPayloadCandidateLens = []
  · have hresize : ∀ out, tmpl.resizeEch a.name a.draws out = some out := fun out => if_pos hech
    rw [newLen, echPayloadDelta_eq_zero hech, add_zero] at hcap ⊢
    by_cases hpad : tmpl.paddingExtOff = 0
    · obtain ⟨rest, hout⟩ := h.split
      have hplain := render_settled_of_plain (a := a) (L := L) hpad hech
      rw [resizePadding, if_pos hpad, padDelta_eq_zero hpad, add_zero, hplain]
      refine ⟨out, hresize _, h.length, ?_, length_render_holds hd h⟩
      rw [hout, List.take_left]
    · obtain ⟨htake, hlength, hnew⟩ := take_resizePadding hd hpad h hcap
      refine ⟨_, hresize _, hlength, ?_, hnew⟩
      rw [← hnew, Int.toNat_natCast] at htake
      exact htake
  · have hpad := hd.exclusive.resolve_right hech
    rw [newLen, padDelta_eq_zero hpad, add_zero] at hcap ⊢
    obtain ⟨out', rest, hsome, hlength, hout, hnew⟩ := resizeEch_spec hd hech h hcap
    rw [resizePadding, if_pos hpad]
    exact ⟨out', hsome, hlength, by rw [hout, List.take_left], hnew⟩

/-- A build into a large enough buffer succeeds, stays inside the buffer, and its message has the
    fields `settled`. -/
theorem build_spec (hd : Described tmpl L) (a : HelloInputs) (out : List UInt8)
    (hcap : max (tmpl.lenAfterSniShift a.name) (tmpl.newLen a.name a.draws) ≤ (out.length : Int)) :
    ∃ out', tmpl.build a.random a.sessionId a.keyShare a.name a.greaseSeed a.draws out =
        some ((render (a.settled tmpl L) L).length, out') ∧
      out'.length = out.length ∧
      out'.take (render (a.settled tmpl L) L).length = render (a.settled tmpl L) L := by
  have hname := a.name_pos
  have hname' := a.name_le
  obtain ⟨hcap₁, hcap₂⟩ := max_le_iff.mp hcap
  obtain ⟨out₁, out₂, hregions, hpoint, h⟩ := holds_written hd hcap₁
  have hlen := length_render_holds hd h
  obtain ⟨out', hresize, hlength, htake, hnew⟩ := resize_spec hd h hcap₂
  refine ⟨out', ?_, hlength, htake⟩
  rw [build, if_neg (by omega), if_neg (by omega), if_neg (by omega)]
  simp only [hregions, hpoint, hresize, Option.bind_eq_bind, Option.bind_some, Option.pure_def,
    Option.some.injEq, Prod.mk.injEq, and_true]
  omega

end HelloInputs

end Cloak
