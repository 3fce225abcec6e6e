import Cloak.Server.ClientHelloCursor
import Cloak.Server.ClientHelloRead

set_option autoImplicit false

/-! # What the ClientHello parser accepts

The grammar of the messages the server reads, as a tree with its bytes. A `server_name` and a `key_share`
extension may have bytes behind their list and the message bytes behind its extension block: the parser
leaves them unread. It accepts the bytes of the trees that fit and nothing else, and what it returns is
read off the tree. -/

namespace Cloak

open Lib

/-- An extension, read as far as the server looks. -/
inductive WireExt where
  | serverName (names : List (UInt8 × List UInt8)) (rest : List UInt8)
  | keyShare (shares : List (UInt16 × List UInt8)) (rest : List UInt8)
  | other (extType : UInt16) (data : List UInt8)
deriving DecidableEq, Repr

namespace WireExt

def extType : WireExt → UInt16
  | serverName .. => 0x0000
  | keyShare .. => 0x0033
  | other extType _ => extType

def body : WireExt → List UInt8
  | serverName names rest => vec 2 (names.flatMap fun p => p.1 :: vec 2 p.2) ++ rest
  | keyShare shares rest => vec 2 (shares.flatMap fun p => storeBe16 p.1 ++ vec 2 p.2) ++ rest
  | other _ data => data

def encode (e : WireExt) : List UInt8 := storeBe16 e.extType ++ vec 2 e.body

/-- The length fits its field, and with it every length in it. -/
structure Fits (e : WireExt) : Prop where
  body : e.body.length < 2 ^ 16
  other : ∀ extType data, e = other extType data → extType ≠ 0x0000 ∧ extType ≠ 0x0033

def names : WireExt → List (UInt8 × List UInt8)
  | serverName names _ => names
  | _ => []

def shares : WireExt → List (UInt16 × List UInt8)
  | keyShare shares _ => shares
  | _ => []

end WireExt

/-- A ClientHello. The length in the record header is any number. -/
structure HelloWire where
  recordLen : UInt16
  version : UInt16
  random : List UInt8
  sessionId : List UInt8
  cipherSuites : List UInt8
  compressionMethods : List UInt8
  exts : List WireExt
  trailing : List UInt8
deriving DecidableEq, Repr

namespace HelloWire

/-- What the three bytes of length of the message cover. -/
def body (w : HelloWire) : List UInt8 :=
  storeBe16 w.version ++ (w.random ++ (vec 1 w.sessionId ++ (vec 2 w.cipherSuites ++
    (vec 1 w.compressionMethods ++ (vec 2 (w.exts.flatMap WireExt.encode) ++ w.trailing)))))

def encode (w : HelloWire) : List UInt8 :=
  0x16 :: 0x03 :: 0x01 :: (storeBe16 w.recordLen ++ (0x01 :: vec 3 w.body))

/-- Every length fits its field, and the random has its 32 bytes. -/
structure Fits (w : HelloWire) : Prop where
  random : w.random.length = 32
  sessionId : w.sessionId.length < 2 ^ 8
  cipherSuites : w.cipherSuites.length < 2 ^ 16
  compressionMethods : w.compressionMethods.length < 2 ^ 8
  exts : ∀ e ∈ w.exts, e.Fits
  extsLength : (w.exts.flatMap WireExt.encode).length < 2 ^ 16
  message : w.body.length < 2 ^ 24

/-- The first `host_name`. -/
def hostName (w : HelloWire) : Option (List UInt8) :=
  ((w.exts.flatMap WireExt.names).find? (·.1 = 0x00)).map Prod.snd

/-- The first X25519 share of 32 bytes. -/
def x25519Share (w : HelloWire) : Option (List UInt8) :=
  ((w.exts.flatMap WireExt.shares).find? fun s => s.1 = 0x001d ∧ s.2.length = 32).map Prod.snd

/-- What the parser is to return. -/
def parsed (w : HelloWire) : ClientHelloParsed where
  random := w.random
  sessionId := if w.sessionId.length = 0 then none else some w.sessionId
  x25519KeyShare := w.x25519Share
  sni := w.hostName

end HelloWire

/-! ## Every tree is read -/

theorem parseExtensions_wire (exts : List WireExt) (hfits : ∀ e ∈ exts, e.Fits) (fuel : Nat)
    (hfuel : (exts.flatMap WireExt.encode).length ≤ fuel) (sni keyShare : Option (List UInt8)) :
    parseExtensions fuel (exts.flatMap WireExt.encode) sni keyShare =
      some (sni.or (((exts.flatMap WireExt.names).find? (·.1 = 0x00)).map Prod.snd),
        keyShare.or (((exts.flatMap WireExt.shares).find?
          fun s => s.1 = 0x001d ∧ s.2.length = 32).map Prod.snd)) := by
  induction exts generalizing fuel sni keyShare with
  | nil => cases fuel <;> cases sni <;> cases keyShare <;> rfl
  | cons e exts ih =>
    have hfit := hfits e List.mem_cons_self
    have hpos : 2 ≤ e.encode.length := by simp [WireExt.encode]
    simp only [List.flatMap_cons, List.length_append] at hfuel ⊢
    cases fuel with
    | zero => omega
    | succ fuel =>
      have hrest := fun sni keyShare => ih (fun e' he' => hfits e' (List.mem_cons_of_mem _ he')) fuel
        (by omega) sni keyShare
      rw [WireExt.encode, List.append_assoc, parseExtensions_turn _ _ hfit.body]
      simp only [List.find?_append, Option.map_or, ← Option.or_assoc]
      cases e with
      | serverName names rest =>
        have hlen := hfit.body
        simp only [WireExt.body, List.length_append, length_vec] at hlen
        rw [if_pos (show (WireExt.serverName names rest).extType = 0x0000 from rfl),
          WireExt.body, parseServerNameExt_list names rest (by omega), Option.bind_some, hrest]
        simp [WireExt.names, WireExt.shares]
      | keyShare shares rest =>
        have hlen := hfit.body
        simp only [WireExt.body, List.length_append, length_vec] at hlen
        rw [if_neg (show (WireExt.keyShare shares rest).extType ≠ 0x0000 by simp [WireExt.extType]),
          if_pos (show (WireExt.keyShare shares rest).extType = 0x0033 from rfl),
          WireExt.body, parseKeyShareExt_list shares rest (by omega), Option.bind_some, hrest]
        simp [WireExt.names, WireExt.shares]
      | other extType data =>
        obtain ⟨hname, hshare⟩ := hfit.other extType data rfl
        rw [if_neg (show (WireExt.other extType data).extType ≠ _ from hname),
          if_neg (show (WireExt.other extType data).extType ≠ _ from hshare), hrest]
        simp [WireExt.names, WireExt.shares]

theorem clienthelloParse_wire (w : HelloWire) (hfits : w.Fits) :
    clienthelloParse w.encode = some w.parsed := by
  have hheader : cursorTake w.encode 5 =
      some (0x16 :: 0x03 :: 0x01 :: storeBe16 w.recordLen, 0x01 :: vec 3 w.body) :=
    cursorTake_append (0x01 :: vec 3 w.body)
      (show (0x16 :: 0x03 :: 0x01 :: storeBe16 w.recordLen).length = 5 from rfl)
  have hsession : w.sessionId.length < 256 ^ 1 := hfits.sessionId
  have hsuites : w.cipherSuites.length < 256 ^ 2 := hfits.cipherSuites
  have hmethods : w.compressionMethods.length < 256 ^ 1 := hfits.compressionMethods
  have hexts : (w.exts.flatMap WireExt.encode).length < 256 ^ 2 := hfits.extsLength
  have hbody : w.body.length < 256 ^ 3 := hfits.message
  have htype : UInt8.toNat 0x01 = 0x01 := rfl
  rw [clienthelloParse, hheader]
  simp only [Option.bind_eq_bind, Option.bind_some, cursorTakeNat_cons, cursorTakeNat_vec_self _ hbody,
    guard, if_true, htype, Option.pure_def, List.take_succ_cons, List.take_zero]
  simp only [HelloWire.body, cursorTake_append _ (length_storeBe16 _), Option.bind_some,
    cursorTake_append _ hfits.random, cursorTakeNat_vec _ hsession, cursorTake_append _ rfl,
    cursorTakeNat_vec _ hsuites, cursorTakeNat_vec _ hmethods, cursorTakeNat_vec _ hexts,
    parseExtensions_wire w.exts hfits.exts _ le_rfl, Option.none_or]
  rfl

/-! ## What is read is a tree -/

theorem cursorTake_some {bs xs rest : List UInt8} {n : Nat} (h : cursorTake bs n = some (xs, rest)) :
    bs = xs ++ rest ∧ xs.length = n := by
  unfold cursorTake at h
  split at h
  · cases h
  · obtain ⟨rfl, rfl⟩ := Prod.mk.inj (Option.some.inj h)
    exact ⟨(List.take_append_drop n bs).symm, by rw [List.length_take]; omega⟩

theorem cursorTakeNat_some {bs rest : List UInt8} {n v : Nat}
    (h : cursorTakeNat bs n = some (v, rest)) : bs = beBytes n v ++ rest ∧ v < 256 ^ n := by
  obtain ⟨⟨xs, rest⟩, htake, heq⟩ := Option.map_eq_some_iff.mp h
  obtain ⟨rfl, rfl⟩ := Prod.mk.inj heq
  obtain ⟨rfl, rfl⟩ := cursorTake_some htake
  exact ⟨by rw [beBytes_beNat], beNat_lt xs⟩

/-- A length and the bytes it covers. -/
theorem vec_some {bs xs rest rest' : List UInt8} {n v : Nat}
    (hlen : cursorTakeNat bs n = some (v, rest)) (hbody : cursorTake rest v = some (xs, rest')) :
    bs = vec n xs ++ rest' ∧ xs.length < 256 ^ n := by
  obtain ⟨rfl, hv⟩ := cursorTakeNat_some hlen
  obtain ⟨rfl, rfl⟩ := cursorTake_some hbody
  exact ⟨by rw [vec, List.append_assoc], hv⟩

theorem u8_some {bs rest : List UInt8} {v : Nat} (h : cursorTakeNat bs 1 = some (v, rest)) :
    ∃ b : UInt8, bs = b :: rest ∧ b.toNat = v := by
  obtain ⟨rfl, hv⟩ := cursorTakeNat_some h
  exact ⟨UInt8.ofNat v, rfl, by rw [UInt8.toNat_ofNat']; omega⟩

theorem u16_some {bs rest : List UInt8} {v : Nat} (h : cursorTakeNat bs 2 = some (v, rest)) :
    ∃ x : UInt16, bs = storeBe16 x ++ rest ∧ x.toNat = v := by
  obtain ⟨rfl, hv⟩ := cursorTakeNat_some h
  exact ⟨UInt16.ofNat v, by rw [storeBe16_ofNat hv], UInt16.toNat_ofNat_of_lt' hv⟩

theorem parseNames_sound (fuel : Nat) {bs : List UInt8} {out r : Option (List UInt8)}
    (h : parseNames fuel bs out = some r) :
    ∃ names : List (UInt8 × List UInt8), bs = names.flatMap fun p => p.1 :: vec 2 p.2 := by
  induction fuel generalizing bs out with
  | zero =>
    cases bs with
    | nil => exact ⟨[], rfl⟩
    | cons b bs => cases h
  | succ fuel ih =>
    cases bs with
    | nil => exact ⟨[], rfl⟩
    | cons b bs =>
      rw [parseNames] at h
      obtain ⟨⟨nameType, bs₁⟩, htype, h⟩ := Option.bind_eq_some_iff.mp h
      obtain ⟨⟨nameLen, bs₂⟩, hlen, h⟩ := Option.bind_eq_some_iff.mp h
      obtain ⟨⟨name, bs₃⟩, hname, h⟩ := Option.bind_eq_some_iff.mp h
      obtain ⟨t, hbs, -⟩ := u8_some htype
      obtain ⟨hbs₁, -⟩ := vec_some hlen hname
      obtain ⟨names, hnames⟩ := ih h
      exact ⟨(t, name) :: names, by
        rw [hbs, hbs₁, hnames, List.flatMap_cons, List.cons_append]⟩

theorem parseShares_sound (fuel : Nat) {bs : List UInt8} {out r : Option (List UInt8)}
    (h : parseShares fuel bs out = some r) :
    ∃ shares : List (UInt16 × List UInt8),
      bs = shares.flatMap fun p => storeBe16 p.1 ++ vec 2 p.2 := by
  induction fuel generalizing bs out with
  | zero =>
    cases bs with
    | nil => exact ⟨[], rfl⟩
    | cons b bs => cases h
  | succ fuel ih =>
    cases bs with
    | nil => exact ⟨[], rfl⟩
    | cons b bs =>
      rw [parseShares] at h
      obtain ⟨⟨group, bs₁⟩, hgroup, h⟩ := Option.bind_eq_some_iff.mp h
      obtain ⟨⟨klen, bs₂⟩, hlen, h⟩ := Option.bind_eq_some_iff.mp h
      obtain ⟨⟨kdata, bs₃⟩, hkdata, h⟩ := Option.bind_eq_some_iff.mp h
      obtain ⟨g, hbs, -⟩ := u16_some hgroup
      obtain ⟨hbs₁, -⟩ := vec_some hlen hkdata
      obtain ⟨shares, hshares⟩ := ih h
      exact ⟨(g, kdata) :: shares, by
        rw [hbs, hbs₁, hshares, List.flatMap_cons, List.append_assoc]⟩

theorem parseServerNameExt_sound {bs : List UInt8} {out r : Option (List UInt8)}
    (h : parseServerNameExt bs out = some r) :
    ∃ names rest, bs = (WireExt.serverName names rest).body := by
  obtain ⟨⟨listLen, bs₁⟩, hlen, h⟩ := Option.bind_eq_some_iff.mp h
  obtain ⟨⟨list, rest⟩, hlist, h⟩ := Option.bind_eq_some_iff.mp h
  obtain ⟨hbs, -⟩ := vec_some hlen hlist
  obtain ⟨names, rfl⟩ := parseNames_sound _ h
  exact ⟨names, rest, hbs⟩

theorem parseKeyShareExt_sound {bs : List UInt8} {out r : Option (List UInt8)}
    (h : parseKeyShareExt bs out = some r) :
    ∃ shares rest, bs = (WireExt.keyShare shares rest).body := by
  obtain ⟨⟨listLen, bs₁⟩, hlen, h⟩ := Option.bind_eq_some_iff.mp h
  obtain ⟨⟨list, rest⟩, hlist, h⟩ := Option.bind_eq_some_iff.mp h
  obtain ⟨hbs, -⟩ := vec_some hlen hlist
  obtain ⟨shares, rfl⟩ := parseShares_sound _ h
  exact ⟨shares, rest, hbs⟩

/-- One extension is read, and the loop goes on behind it. -/
theorem parseExtensions_step {fuel : Nat} {b : UInt8} {bs : List UInt8}
    {sni keyShare : Option (List UInt8)} {r : Option (List UInt8) × Option (List UInt8)}
    (h : parseExtensions (fuel + 1) (b :: bs) sni keyShare = some r) :
    ∃ (e : WireExt) (rest : List UInt8) (sni' keyShare' : Option (List UInt8)),
      b :: bs = e.encode ++ rest ∧ e.Fits ∧ parseExtensions fuel rest sni' keyShare' = some r := by
  rw [parseExtensions] at h
  obtain ⟨⟨extType, bs₁⟩, htype, h⟩ := Option.bind_eq_some_iff.mp h
  obtain ⟨⟨extLen, bs₂⟩, hlen, h⟩ := Option.bind_eq_some_iff.mp h
  obtain ⟨⟨body, rest⟩, hbody, h⟩ := Option.bind_eq_some_iff.mp h
  obtain ⟨t, hbs, htoNat⟩ := u16_some htype
  obtain ⟨hbs₁, hfits⟩ := vec_some hlen hbody
  have hencode : ∀ e : WireExt, e.extType = t → e.body = body → b :: bs = e.encode ++ rest := by
    rintro e rfl rfl
    rw [hbs, hbs₁, WireExt.encode, List.append_assoc]
  dsimp only at h
  split at h
  · next hname =>
    obtain ⟨sni', hsni, h⟩ := Option.bind_eq_some_iff.mp h
    obtain ⟨names, behind, hnames⟩ := parseServerNameExt_sound hsni
    exact ⟨.serverName names behind, rest, sni', keyShare,
      hencode _ (UInt16.toNat_inj.mp (htoNat.trans hname).symm) hnames.symm,
      ⟨hnames ▸ hfits, by rintro _ _ ⟨⟩⟩, h⟩
  · next hname =>
    split at h
    · next hshare =>
      obtain ⟨keyShare', hkey, h⟩ := Option.bind_eq_some_iff.mp h
      obtain ⟨shares, behind, hshares⟩ := parseKeyShareExt_sound hkey
      exact ⟨.keyShare shares behind, rest, sni, keyShare',
        hencode _ (UInt16.toNat_inj.mp (htoNat.trans hshare).symm) hshares.symm,
        ⟨hshares ▸ hfits, by rintro _ _ ⟨⟩⟩, h⟩
    · next hshare =>
      refine ⟨.other t body, rest, sni, keyShare, hencode _ rfl rfl, ⟨hfits, ?_⟩, h⟩
      rintro _ _ ⟨⟩
      exact ⟨fun ht => hname (by rw [← htoNat, ht]; rfl), fun ht => hshare (by rw [← htoNat, ht]; rfl)⟩

theorem parseExtensions_sound (fuel : Nat) {bs : List UInt8} {sni keyShare : Option (List UInt8)}
    {r : Option (List UInt8) × Option (List UInt8)}
    (h : parseExtensions fuel bs sni keyShare = some r) :
    ∃ exts : List WireExt, bs = exts.flatMap WireExt.encode ∧ ∀ e ∈ exts, e.Fits := by
  induction fuel generalizing bs sni keyShare with
  | zero =>
    cases bs with
    | nil => exact ⟨[], rfl, nofun⟩
    | cons b bs => cases h
  | succ fuel ih =>
    cases bs with
    | nil => exact ⟨[], rfl, nofun⟩
    | cons b bs =>
      obtain ⟨e, rest, sni', keyShare', hbs, hfit, h⟩ := parseExtensions_step h
      obtain ⟨exts, rfl, hfits⟩ := ih h
      exact ⟨e :: exts, hbs, List.forall_mem_cons.mpr ⟨hfit, hfits⟩⟩

theorem clienthelloParse_sound {data : List UInt8} {r : ClientHelloParsed}
    (h : clienthelloParse data = some r) : ∃ w : HelloWire, w.Fits ∧ data = w.encode := by
  obtain ⟨⟨hdr, c₁⟩, hhdr, h⟩ := Option.bind_eq_some_iff.mp h
  obtain ⟨_, hrecord, h⟩ := Option.bind_eq_some_iff.mp h
  obtain ⟨⟨handshakeType, c₂⟩, htype, h⟩ := Option.bind_eq_some_iff.mp h
  obtain ⟨_, hhello, h⟩ := Option.bind_eq_some_iff.mp h
  obtain ⟨⟨handshakeLen, c⟩, hlen, h⟩ := Option.bind_eq_some_iff.mp h
  obtain ⟨_, hrest, h⟩ := Option.bind_eq_some_iff.mp h
  obtain ⟨⟨version, c₃⟩, hversion, h⟩ := Option.bind_eq_some_iff.mp h
  obtain ⟨⟨random, c₄⟩, hrandom, h⟩ := Option.bind_eq_some_iff.mp h
  obtain ⟨⟨sessionIdLen, c₅⟩, hsessionLen, h⟩ := Option.bind_eq_some_iff.mp h
  obtain ⟨⟨sessionId, c₆⟩, hsession, h⟩ := Option.bind_eq_some_iff.mp h
  obtain ⟨⟨suitesLen, c₇⟩, hsuitesLen, h⟩ := Option.bind_eq_some_iff.mp h
  obtain ⟨⟨suites, c₈⟩, hsuites, h⟩ := Option.bind_eq_some_iff.mp h
  obtain ⟨⟨methodsLen, c₉⟩, hmethodsLen, h⟩ := Option.bind_eq_some_iff.mp h
  obtain ⟨⟨methods, c₁₀⟩, hmethods, h⟩ := Option.bind_eq_some_iff.mp h
  obtain ⟨⟨extsLen, c₁₁⟩, hextsLen, h⟩ := Option.bind_eq_some_iff.mp h
  obtain ⟨⟨extBytes, trailing⟩, hexts, h⟩ := Option.bind_eq_some_iff.mp h
  obtain ⟨found, hfound, -⟩ := Option.bind_eq_some_iff.mp h
  clear h
  simp only [Option.guard_eq_some'] at hrecord hhello hrest
  -- The two headers.
  obtain ⟨hdata, hhdrLen⟩ := cursorTake_some hhdr
  have hlenField : cursorTakeNat (hdr.drop 3) 2 = some (beNat (hdr.drop 3), []) := by
    rw [← cursorTakeNat_append [] (by rw [List.length_drop, hhdrLen]), List.append_nil]
  obtain ⟨recordLen, hrecordLen, -⟩ := u16_some hlenField
  obtain ⟨t, hc₁, ht⟩ := u8_some htype
  obtain rfl : t = 0x01 := UInt8.toNat_inj.mp (ht.trans hhello)
  obtain ⟨hc₂, hlt⟩ := cursorTakeNat_some hlen
  -- The message.
  have hversionNat : cursorTakeNat c 2 = some (beNat version, c₃) := by
    rw [cursorTakeNat, hversion, Option.map_some]
  obtain ⟨v, hc, -⟩ := u16_some hversionNat
  obtain ⟨hc₃, hrandomLen⟩ := cursorTake_some hrandom
  obtain ⟨hc₄, hsessionFits⟩ := vec_some hsessionLen hsession
  obtain ⟨hc₆, hsuitesFits⟩ := vec_some hsuitesLen hsuites
  obtain ⟨hc₈, hmethodsFits⟩ := vec_some hmethodsLen hmethods
  obtain ⟨hc₁₀, hextsFits⟩ := vec_some hextsLen hexts
  obtain ⟨exts, rfl, hfits⟩ := parseExtensions_sound _ hfound
  have hbody : c = HelloWire.body ⟨recordLen, v, random, sessionId, suites, methods, exts, trailing⟩ := by
    rw [hc, hc₃, hc₄, hc₆, hc₈, hc₁₀, HelloWire.body]
  refine ⟨⟨recordLen, v, random, sessionId, suites, methods, exts, trailing⟩,
    { random := hrandomLen
      sessionId := hsessionFits
      cipherSuites := hsuitesFits
      compressionMethods := hmethodsFits
      exts := hfits
      extsLength := hextsFits
      message := ?_ }, ?_⟩
  · rw [← hbody, ← hrest]
    exact hlt
  · rw [hdata, ← List.take_append_drop 3 hdr, hrecord, hrecordLen, hc₁, hc₂, HelloWire.encode, vec,
      ← hbody, ← hrest]
    simp

/-- The parser accepts the messages of the grammar and no others. -/
theorem clienthelloParse_eq_some_iff (data : List UInt8) (r : ClientHelloParsed) :
    clienthelloParse data = some r ↔ ∃ w : HelloWire, w.Fits ∧ data = w.encode ∧ r = w.parsed := by
  constructor
  · intro h
    obtain ⟨w, hfits, rfl⟩ := clienthelloParse_sound h
    exact ⟨w, hfits, rfl, Option.some.inj (h.symm.trans (clienthelloParse_wire w hfits))⟩
  · rintro ⟨w, hfits, rfl, rfl⟩
    exact clienthelloParse_wire w hfits

/-! ## The parser over its input -/

/-- The parse always ends and reads nothing outside the input; it succeeds on the messages of the
    grammar, where the result points to the fields of the tree, and clears the result on all others. -/
theorem clienthello_parse_grammar (data : List UInt8) :
    ∃ ok out, clienthelloParseInto data = some (ok, out) ∧
      (ok = true ↔ ∃ w : HelloWire, w.Fits ∧ data = w.encode) ∧
      (∀ w : HelloWire, w.Fits → data = w.encode → out.Reads data w.parsed) ∧
      (ok = false → out = .cleared) := by
  have hmatch := walkHello_matches data
  unfold clienthelloParseInto
  generalize walkHello data = o at hmatch
  generalize hparse : clienthelloParse data = q at hmatch
  have hwire : ∀ w : HelloWire, w.Fits → data = w.encode → q = some w.parsed := by
    rintro w hfits rfl
    exact hparse.symm.trans (clienthelloParse_wire w hfits)
  rcases o with out | _ | _ <;> rcases q with _ | r
  · exact hmatch.elim
  · refine ⟨true, out, rfl, ⟨fun _ => clienthelloParse_sound hparse, fun _ => rfl⟩, ?_, nofun⟩
    intro w hfits hdata
    obtain rfl : r = w.parsed := Option.some.inj (hwire w hfits hdata)
    exact hmatch
  · refine ⟨false, .cleared, rfl, ⟨nofun, ?_⟩, ?_, fun _ => rfl⟩
    · rintro ⟨w, hfits, hdata⟩
      cases hwire w hfits hdata
    · intro w hfits hdata
      cases hwire w hfits hdata
  · exact hmatch.elim
  · exact hmatch.elim
  · exact hmatch.elim

/-! ## Bytes behind the extension block -/

/-- What the parser leaves unread behind the extension block. -/
def unreadBytes (data : List UInt8) : Option (List UInt8) := do
  let (_, c) ← cursorTake data (5 + 1 + 3)
  let (_, c) ← cursorTake c (2 + 32)
  let (sessionIdLen, c) ← cursorTakeNat c 1
  let (_, c) ← cursorTake c sessionIdLen
  let (cipherSuitesLen, c) ← cursorTakeNat c 2
  let (_, c) ← cursorTake c cipherSuitesLen
  let (compressionMethodsLen, c) ← cursorTakeNat c 1
  let (_, c) ← cursorTake c compressionMethodsLen
  let (extensionsLen, c) ← cursorTakeNat c 2
  let (_, c) ← cursorTake c extensionsLen
  return c

theorem unreadBytes_encode (w : HelloWire) (hfits : w.Fits) :
    unreadBytes w.encode = some w.trailing := by
  have hheader : cursorTake w.encode 9 =
      some (0x16 :: 0x03 :: 0x01 :: (storeBe16 w.recordLen ++ 0x01 :: beBytes 3 w.body.length),
        w.body) := by
    have happend : w.encode = 0x16 :: 0x03 :: 0x01 :: (storeBe16 w.recordLen ++
        0x01 :: beBytes 3 w.body.length) ++ w.body := by
      simp [HelloWire.encode, vec]
    rw [happend]
    exact cursorTake_append _ (by simp)
  have hfixed : (storeBe16 w.version ++ w.random).length = 2 + 32 := by
    rw [List.length_append, length_storeBe16, hfits.random]
  have hsession : w.sessionId.length < 256 ^ 1 := hfits.sessionId
  have hsuites : w.cipherSuites.length < 256 ^ 2 := hfits.cipherSuites
  have hmethods : w.compressionMethods.length < 256 ^ 1 := hfits.compressionMethods
  have hexts : (w.exts.flatMap WireExt.encode).length < 256 ^ 2 := hfits.extsLength
  rw [unreadBytes, hheader]
  simp only [Option.bind_eq_bind, Option.bind_some, HelloWire.body]
  rw [← List.append_assoc (storeBe16 _)]
  simp only [cursorTake_append _ hfixed, Option.bind_some, cursorTakeNat_vec _ hsession,
    cursorTake_append _ rfl, cursorTakeNat_vec _ hsuites, cursorTakeNat_vec _ hmethods,
    cursorTakeNat_vec _ hexts, Option.pure_def]

/-- A message without extensions, and one byte behind the empty block. -/
def trailingHello : List UInt8 :=
  [0x16, 0x03, 0x01, 0, 0, 0x01, 0, 0, 41, 0x03, 0x03] ++ List.replicate 32 0 ++ [0, 0, 0, 0, 0, 0, 0xff]

/-- A byte behind the extension block is no part of the fields of the message, and is let pass. -/
theorem trailing_byte_accepted :
    (∃ out, clienthelloParseInto trailingHello = some (true, out)) ∧
      ¬ ∃ w : HelloWire, w.Fits ∧ w.trailing = [] ∧ trailingHello = w.encode := by
  refine ⟨⟨⟨some 11, none, 0, none, none, 0⟩, by decide⟩, ?_⟩
  rintro ⟨w, hfits, htrailing, hdata⟩
  have hunread := unreadBytes_encode w hfits
  rw [← hdata, htrailing] at hunread
  revert hunread
  decide

end Cloak
