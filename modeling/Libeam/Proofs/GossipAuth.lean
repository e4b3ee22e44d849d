import Libeam.Auth.Cookie
/-!
# What a digest vouches for

A message is accepted exactly when its digest is right and its nonce is not remembered.  The
digest covers the sender, the peers and the nonce, and nothing else.
-/

namespace Libeam.Auth

open Lib

variable {K F : Type} [JsonNumber F] {crypto : Crypto K}

/-! ## What is covered -/

theorem writtenMembers_append (ms ns : List (String × Json F)) :
    Json.writtenMembers (ms ++ ns) = Json.writtenMembers ms ++ Json.writtenMembers ns := by
  induction ms with
  | nil => rfl
  | cons m ms ih =>
      obtain ⟨k, v⟩ := m
      rw [List.cons_append, Json.writtenMembers, Json.writtenMembers, ih, List.cons_append]

/-- Two payloads are the same when sender, peers and nonce are written alike. -/
theorem gossipPayload_eq_iff {m m' : GossipMessage F} {nonce nonce' : String} :
    gossipPayload m nonce = gossipPayload m' nonce' ↔
      m.senderId.map Json.written = m'.senderId.map Json.written ∧
        m.peers.map Json.written = m'.peers.map Json.written ∧ nonce = nonce' := by
  rw [gossipPayload, gossipPayload, Json.stringify_eq_iff, Json.written, Json.written,
    Json.obj.injEq]
  simp only [writtenMembers_append]
  rcases m with ⟨-, _ | sender, _ | peers⟩ <;> rcases m' with ⟨-, _ | sender', _ | peers'⟩ <;>
    simp [Json.writtenMembers, Json.written]

/-! ## What is accepted -/

namespace CookieAuthenticator

variable {auth auth' : CookieAuthenticator K} {message : AuthenticatedGossipMessage F} {now : Nat}

/-- The cache in which an accepted nonce is looked up. -/
def remembered (auth : CookieAuthenticator K) (now : Nat) : OrderedMap String Nat :=
  (auth.evictExpiredNonces now).nonceCache

def remember (auth : CookieAuthenticator K) (nonce : String) (now : Nat) : CookieAuthenticator K :=
  { auth with nonceCache := (auth.remembered now).set nonce now }.evictOverflowNonces

/-- The outcomes of a verification. -/
theorem verifyGossip_cases (auth : CookieAuthenticator K) (message : AuthenticatedGossipMessage F)
    (now : Nat) :
    (∃ nonce, Matches crypto auth.hmacKey message ∧ message.nonce = some nonce ∧
      nonce ∉ (auth.remembered now).keys ∧
      auth.verifyGossip crypto message now = (auth.remember nonce now, true)) ∨
    (∃ nonce, Matches crypto auth.hmacKey message ∧ message.nonce = some nonce ∧
      nonce ∈ (auth.remembered now).keys ∧
      auth.verifyGossip crypto message now = (auth.evictExpiredNonces now, false)) ∨
    ¬ Matches crypto auth.hmacKey message ∧
      auth.verifyGossip crypto message now = (auth, false) := by
  obtain ⟨⟨version, senderId, peers⟩, _ | nonce, hmac⟩ := message
  · exact Or.inr (Or.inr ⟨fun ⟨_, _, hnonce, _⟩ => (nomatch hnonce), rfl⟩)
  cases hmac with
  | none => exact Or.inr (Or.inr ⟨fun ⟨_, _, _, hhmac, _⟩ => (nomatch hhmac), rfl⟩)
  | some hmac =>
      rw [verifyGossip]
      dsimp only
      by_cases hempty : nonce = "" ∨ hmac = ""
      · rw [if_pos hempty]
        refine Or.inr (Or.inr ⟨?_, rfl⟩)
        rintro ⟨_, _, ⟨⟩, ⟨⟩, hnonce, hhmac, -⟩
        exact hempty.elim hnonce hhmac
      rw [if_neg hempty, computeGossipHmac, ofHex_toHex]
      by_cases hdigest : crypto.hmac auth.hmacKey
          (gossipPayload ⟨version, senderId, peers⟩ nonce) = ofHex hmac
      · have hmatches : Matches crypto auth.hmacKey
            (⟨⟨version, senderId, peers⟩, some nonce, some hmac⟩ : AuthenticatedGossipMessage F) :=
          ⟨nonce, hmac, rfl, rfl, fun h => hempty (Or.inl h), fun h => hempty (Or.inr h), hdigest⟩
        rw [if_neg (not_not.2 hdigest)]
        by_cases hcached : (auth.evictExpiredNonces now).nonceCache.has nonce = true
        · rw [if_pos hcached]
          exact Or.inr (Or.inl ⟨nonce, hmatches, rfl, OrderedMap.has_iff.1 hcached, rfl⟩)
        · rw [if_neg hcached]
          exact Or.inl ⟨nonce, hmatches, rfl, fun h => hcached (OrderedMap.has_iff.2 h), rfl⟩
      · rw [if_pos hdigest]
        refine Or.inr (Or.inr ⟨?_, rfl⟩)
        rintro ⟨_, _, ⟨⟩, ⟨⟩, -, -, h⟩
        exact hdigest h

theorem verifyGossip_eq_true_iff : (auth.verifyGossip crypto message now).2 = true ↔
    Matches crypto auth.hmacKey message ∧
      ∀ nonce ∈ message.nonce, nonce ∉ (auth.remembered now).keys := by
  rcases auth.verifyGossip_cases message now with
    ⟨nonce, hmatches, hnonce, hnew, h⟩ | ⟨nonce, hmatches, hnonce, hold, h⟩ | ⟨hmatches, h⟩ <;>
    rw [h]
  · refine iff_of_true rfl ⟨hmatches, fun n hn => ?_⟩
    rw [hnonce] at hn
    cases hn
    exact hnew
  · exact iff_of_false Bool.false_ne_true fun ⟨_, h⟩ => h nonce hnonce hold
  · exact iff_of_false Bool.false_ne_true fun h => hmatches h.1

/-- A verification leaves the key as it is. -/
@[simp] theorem hmacKey_verifyGossip (auth : CookieAuthenticator K)
    (message : AuthenticatedGossipMessage F) (now : Nat) :
    (auth.verifyGossip crypto message now).1.hmacKey = auth.hmacKey := by
  rcases auth.verifyGossip_cases message now with ⟨_, _, _, _, h⟩ | ⟨_, _, _, _, h⟩ | ⟨_, h⟩ <;>
    rw [h] <;> rfl

theorem hmacKey_of_verifyGossip {accepted : Bool}
    (h : auth.verifyGossip crypto message now = (auth', accepted)) :
    auth'.hmacKey = auth.hmacKey := by
  rw [← hmacKey_verifyGossip auth message now, h]

theorem remembered_of_empty (hempty : auth.nonceCache = .empty) (now : Nat) :
    (auth.remembered now).keys = [] := by
  rw [remembered, evictExpiredNonces, hempty]
  rfl

/-- A fresh authenticator accepts whatever has the right digest. -/
theorem verifyGossip_fresh_iff (hempty : auth.nonceCache = .empty) :
    (auth.verifyGossip crypto message now).2 = true ↔ Matches crypto auth.hmacKey message := by
  rw [verifyGossip_eq_true_iff, remembered_of_empty hempty]
  exact and_iff_left fun _ _ => List.not_mem_nil

end CookieAuthenticator

theorem toHex_ne_empty {bytes : List UInt8} (h : bytes ≠ []) : toHex bytes ≠ "" := by
  intro hhex
  rw [← ofHex_toHex bytes, hhex] at h
  exact h rfl

variable (crypto) in
/-- Which of the two authenticators of a keyring decides. -/
theorem KeyringAuthenticator.verifyGossip_cases (keyring : KeyringAuthenticator K)
    (message : AuthenticatedGossipMessage F) (now : Nat) :
    (∃ primary, keyring.primary.verifyGossip crypto message now = (primary, true) ∧
      keyring.verifyGossip crypto message now = ({ keyring with primary := primary }, true)) ∨
    (∃ primary, keyring.primary.verifyGossip crypto message now = (primary, false) ∧
      keyring.secondary = none ∧
      keyring.verifyGossip crypto message now = ({ keyring with primary := primary }, false)) ∨
    ∃ primary sec sec' accepted,
      keyring.primary.verifyGossip crypto message now = (primary, false) ∧
      keyring.secondary = some sec ∧ sec.verifyGossip crypto message now = (sec', accepted) ∧
      keyring.verifyGossip crypto message now =
        ({ keyring with primary := primary, secondary := some sec' }, accepted) := by
  rw [KeyringAuthenticator.verifyGossip]
  rcases hprimary : keyring.primary.verifyGossip crypto message now with ⟨primary, _ | _⟩
  · cases hsec : keyring.secondary with
    | none => exact Or.inr (Or.inl ⟨primary, rfl, rfl, rfl⟩)
    | some sec =>
        rcases hverify : sec.verifyGossip crypto message now with ⟨sec', accepted⟩
        refine Or.inr (Or.inr ⟨primary, sec, sec', accepted, rfl, rfl, hverify, ?_⟩)
        dsimp only
        rw [hverify]
  · exact Or.inl ⟨primary, rfl, rfl⟩

/-- A message under the key of the secondary alone, with a nonce that it does not remember. -/
theorem KeyringAuthenticator.verifyGossip_secondary {keyring : KeyringAuthenticator K}
    {sec : CookieAuthenticator K} (hsec : keyring.secondary = some sec)
    {message : AuthenticatedGossipMessage F} {now : Nat}
    (hprimary : ¬ Matches crypto keyring.primary.hmacKey message)
    (hmatches : Matches crypto sec.hmacKey message) {nonce : String}
    (hnonce : message.nonce = some nonce) (hnew : nonce ∉ (sec.remembered now).keys) :
    keyring.verifyGossip crypto message now =
      ({ keyring with secondary := some (sec.remember nonce now) }, true) := by
  have hfirst : keyring.primary.verifyGossip crypto message now = (keyring.primary, false) := by
    rcases keyring.primary.verifyGossip_cases message now with ⟨_, h, -⟩ | ⟨_, h, -⟩ | ⟨-, h⟩
    · exact absurd h hprimary
    · exact absurd h hprimary
    · exact h
  have hsecond : sec.verifyGossip crypto message now = (sec.remember nonce now, true) := by
    rcases sec.verifyGossip_cases message now with
      ⟨n, -, hn, -, h⟩ | ⟨n, -, hn, hold, -⟩ | ⟨h, -⟩
    · cases hn.symm.trans hnonce
      exact h
    · cases hn.symm.trans hnonce
      exact absurd hold hnew
    · exact absurd hmatches h
  rw [KeyringAuthenticator.verifyGossip, hfirst, hsec]
  dsimp only
  rw [hsecond]

/-- A message that has been signed has the right digest, whatever version it then carries. -/
theorem CookieAuthenticator.matches_signGossip (hideal : crypto.Ideal)
    (auth : CookieAuthenticator K) (message : GossipMessage F) {randomBytes : List UInt8}
    (hrandom : randomBytes ≠ []) (version : Option (Json F)) :
    Matches crypto auth.hmacKey
      { auth.signGossip crypto message randomBytes with version := version } :=
  ⟨_, _, rfl, rfl, toHex_ne_empty hrandom, toHex_ne_empty (hideal.hmac_ne_nil _ _),
    (ofHex_toHex _).symm⟩

/-! ## A digest without collisions -/

def charBytes (c : Char) : List UInt8 :=
  [UInt8.ofNat (c.toNat / 65536), UInt8.ofNat (c.toNat / 256), UInt8.ofNat c.toNat]

/-- The digest that shows the key and the text, for examples. -/
def Crypto.plain : Crypto (List Char) where
  hmacKey cookie salt := cookie.toList ++ salt.toList
  curveKeyPair cookie salt := ⟨cookie, salt⟩
  hmac k text := k.flatMap charBytes ++ 255 :: text.flatMap charBytes

theorem toNat_lt_of_char (c : Char) : c.toNat < 0x110000 := by
  have hvalid : c.toNat < 0xd800 ∨ 0xdfff < c.toNat ∧ c.toNat < 0x110000 := c.valid
  omega

theorem charBytes_injective : Function.Injective charBytes := by
  intro c d h
  have hc := toNat_lt_of_char c
  have hd := toNat_lt_of_char d
  obtain ⟨hhigh, hmiddle, hlow⟩ : c.toNat / 65536 % 256 = d.toNat / 65536 % 256 ∧
      c.toNat / 256 % 256 = d.toNat / 256 % 256 ∧ c.toNat % 256 = d.toNat % 256 := by
    simpa [charBytes, ← UInt8.toNat_inj] using h
  exact Char.toNat_inj.1 (by omega)

theorem charBytes_head_ne (c : Char) : UInt8.ofNat (c.toNat / 65536) ≠ 255 := by
  have hc := toNat_lt_of_char c
  rw [ne_eq, ← UInt8.toNat_inj, UInt8.toNat_ofNat']
  change c.toNat / 65536 % 256 ≠ 255
  omega

theorem flatMap_charBytes_inj {k k' : List Char} {t t' : List UInt8}
    (h : k.flatMap charBytes ++ 255 :: t = k'.flatMap charBytes ++ 255 :: t') :
    k = k' ∧ t = t' := by
  induction k generalizing k' with
  | nil =>
      cases k' with
      | nil => exact ⟨rfl, (List.cons.inj h).2⟩
      | cons c k' => exact absurd (List.cons.inj h).1.symm (charBytes_head_ne c)
  | cons c k ih =>
      cases k' with
      | nil => exact absurd (List.cons.inj h).1 (charBytes_head_ne c)
      | cons d k' =>
          rw [List.flatMap_cons, List.flatMap_cons, List.append_assoc, List.append_assoc] at h
          obtain ⟨hhead, htail⟩ := List.append_inj h rfl
          obtain ⟨rfl, rfl⟩ := ih htail
          exact ⟨congrArg (· :: k) (charBytes_injective hhead), rfl⟩

theorem Crypto.plain_ideal : Crypto.plain.Ideal where
  hmacKey_injective salt cookie cookie' h :=
    String.toList_inj.1 (List.append_cancel_right h)
  hmac_injective h := by
    obtain ⟨hk, ht⟩ := flatMap_charBytes_inj h
    exact ⟨hk, (flatMap_charBytes_inj (congrArg (· ++ [255]) ht)).1⟩
  hmac_ne_nil k t h := by simp [Crypto.plain] at h

/-! ## What is handed on -/

section

variable {A : Type} {verifyGossip : A → AuthenticatedGossipMessage F → Nat → A × Bool}

omit [JsonNumber F] in
/-- With an authenticator, a message is handed on when it is accepted. -/
theorem GossipUDP.onMessage_eq_some {udp : GossipUDP A} {auth : A} (hauth : udp.auth = some auth)
    {decoded : AuthenticatedGossipMessage F} {peer : String} {now : Nat} {g : GossipMessage F} :
    (udp.onMessage verifyGossip decoded peer now).2 = some g ↔
      (verifyGossip auth decoded now).2 = true ∧ g = decoded.toGossipMessage := by
  rw [GossipUDP.onMessage, hauth]
  dsimp only
  split
  · rename_i h
    rw [h]
    exact ⟨fun hg => ⟨rfl, (Option.some.inj hg).symm⟩, fun hg => congrArg some hg.2.symm⟩
  · rename_i h
    rw [h]
    exact ⟨fun hg => (nomatch hg), fun hg => (nomatch hg.1)⟩

end

/-- A right digest for one message is a right digest for another with the same nonce and digest
exactly when the two have the same payload. -/
theorem Matches.payload_eq (hideal : crypto.Ideal) {k k' : K}
    {m m' : AuthenticatedGossipMessage F} (hm : Matches crypto k m) (hm' : Matches crypto k' m')
    (hhmac : m.hmac = m'.hmac) {nonce nonce' : String} (hnonce : m.nonce = some nonce)
    (hnonce' : m'.nonce = some nonce') :
    k = k' ∧ gossipPayload m.toGossipMessage nonce = gossipPayload m'.toGossipMessage nonce' := by
  obtain ⟨n, hmac, hn, hh, -, -, hdigest⟩ := hm
  obtain ⟨n', hmac', hn', hh', -, -, hdigest'⟩ := hm'
  cases hn.symm.trans hnonce
  cases hn'.symm.trans hnonce'
  cases hh.symm.trans (hhmac.trans hh')
  exact hideal.hmac_injective (hdigest.trans hdigest'.symm)

theorem Matches.key_unique (hideal : crypto.Ideal) {k k' : K}
    {message : AuthenticatedGossipMessage F} (h : Matches crypto k message)
    (h' : Matches crypto k' message) : k = k' := by
  obtain ⟨nonce, -, hnonce, -⟩ := id h
  exact (h.payload_eq hideal h' rfl hnonce hnonce).1

theorem CookieAuthenticator.new_eq_ok {cookie : String} {options : CookieAuthenticatorOptions}
    {auth : CookieAuthenticator K} (h : CookieAuthenticator.new crypto cookie options = .ok auth) :
    auth.hmacKey = crypto.hmacKey cookie (options.salt.getD "libeam-v2") ∧
      auth.nonceCache = .empty ∧
      auth.nonceTtlMs = options.nonceTtlMs.getD DEFAULT_NONCE_TTL_MS ∧
      auth.nonceCacheMaxSize =
        options.nonceCacheMaxSize.getD DEFAULT_NONCE_CACHE_MAX_SIZE := by
  rw [CookieAuthenticator.new] at h
  split at h
  · exact nomatch h
  · cases h
    exact ⟨rfl, rfl, rfl, rfl⟩

theorem CookieAuthenticator.length_of_new {cookie : String} {options : CookieAuthenticatorOptions}
    {auth : CookieAuthenticator K} (h : CookieAuthenticator.new crypto cookie options = .ok auth) :
    MIN_COOKIE_LENGTH ≤ utf16Length cookie := by
  rw [CookieAuthenticator.new] at h
  split at h
  · exact nomatch h
  · exact Nat.le_of_not_lt ‹_›

/-- Of two messages with the same nonce and digest, each accepted by a fresh authenticator, the
protocol reads the same exactly when they agree on the version, which the digest leaves out, and
on the numbers of the peers that no text keeps. -/
theorem handed_on_reads_eq_iff [DecidableEq F] (hideal : crypto.Ideal) {cookie : String}
    {options options' : CookieAuthenticatorOptions} {auth auth' : CookieAuthenticator K}
    (hauth : CookieAuthenticator.new crypto cookie options = .ok auth)
    (hauth' : CookieAuthenticator.new crypto cookie options' = .ok auth')
    {udp udp' : GossipUDP (CookieAuthenticator K)} (hudp : udp.auth = some auth)
    (hudp' : udp'.auth = some auth') {m m' : AuthenticatedGossipMessage F} {peer peer' : String}
    {now now' : Nat} {g g' : GossipMessage F}
    (hg : (udp.onMessage (CookieAuthenticator.verifyGossip crypto) m peer now).2 = some g)
    (hg' : (udp'.onMessage (CookieAuthenticator.verifyGossip crypto) m' peer' now').2 = some g')
    (hnonce : m.nonce = m'.nonce) (hhmac : m.hmac = m'.hmac) :
    g.reads = g'.reads ↔
      m.version = m'.version ∧ m.peers.map Json.lost = m'.peers.map Json.lost := by
  obtain ⟨haccepted, rfl⟩ := (GossipUDP.onMessage_eq_some hudp).1 hg
  obtain ⟨haccepted', rfl⟩ := (GossipUDP.onMessage_eq_some hudp').1 hg'
  have hmatches :=
    (CookieAuthenticator.verifyGossip_fresh_iff (CookieAuthenticator.new_eq_ok hauth).2.1).1
      haccepted
  have hmatches' :=
    (CookieAuthenticator.verifyGossip_fresh_iff (CookieAuthenticator.new_eq_ok hauth').2.1).1
      haccepted'
  obtain ⟨nonce, hmac, hn, -⟩ := id hmatches
  obtain ⟨-, hpayload⟩ := hmatches.payload_eq hideal hmatches' hhmac hn (hnonce.symm.trans hn)
  have hpeers := (gossipPayload_eq_iff.1 hpayload).2.1
  rw [GossipMessage.reads, GossipMessage.reads, Prod.mk.injEq]
  refine and_congr_right fun _ => ⟨fun h => by rw [h], fun hlost => ?_⟩
  cases hp : m.peers with
  | none =>
      rw [hp] at hpeers
      exact (Option.map_eq_none_iff.1 hpeers.symm).symm
  | some v =>
      cases hp' : m'.peers with
      | none =>
          rw [hp, hp'] at hpeers
          exact nomatch hpeers
      | some w =>
          rw [hp, hp'] at hpeers hlost
          exact congrArg some (Json.eq_of_lost v w (Option.some.inj hpeers) (Option.some.inj hlost))

section

/-- The authenticator of the tests' cookie, which has accepted nothing yet. -/
def testAuthenticator : CookieAuthenticator (List Char) where
  hmacKey := Crypto.plain.hmacKey "my-secret-cookie-long-enough" "libeam-v2"
  nonceTtlMs := 10000
  nonceCacheMaxSize := 10000
  nonceCache := .empty
  curveKeyPair := Crypto.plain.curveKeyPair "my-secret-cookie-long-enough" "libeam-v2"

/-- The keyring of the tests' cookie, whose nonces are kept for `nonceTtlMs`. -/
def testKeyring (nonceTtlMs : Nat) : KeyringAuthenticator (List Char) :=
  ⟨{ testAuthenticator with nonceTtlMs := nonceTtlMs }, none, "libeam-v2"⟩

def testMessage : AuthenticatedGossipMessage Int :=
  testAuthenticator.signGossip Crypto.plain
    ⟨some (.num 1), some (.str "test-node"), some (.arr [])⟩ [0]

theorem new_testAuthenticator : CookieAuthenticator.new Crypto.plain "my-secret-cookie-long-enough"
    ⟨none, none, none⟩ = .ok testAuthenticator := rfl

theorem onMessage_testMessage (version : Option (Json Int)) :
    ((⟨some testAuthenticator, []⟩ : GossipUDP _).onMessage
      (CookieAuthenticator.verifyGossip Crypto.plain) { testMessage with version := version }
      "127.0.0.1:6000" 0).2 = some { testMessage.toGossipMessage with version := version } :=
  (GossipUDP.onMessage_eq_some rfl).2
    ⟨(CookieAuthenticator.verifyGossip_fresh_iff rfl).2
      (CookieAuthenticator.matches_signGossip Crypto.plain_ideal testAuthenticator _ (by decide) _),
      rfl⟩

theorem handed_on_reads_eq_iff_self :
    ∃ g, ((⟨some testAuthenticator, []⟩ : GossipUDP _).onMessage
        (CookieAuthenticator.verifyGossip Crypto.plain) testMessage "127.0.0.1:6000" 0).2 = some g ∧
      (g.reads = g.reads ↔ testMessage.version = testMessage.version ∧
        testMessage.peers.map Json.lost = testMessage.peers.map Json.lost) :=
  ⟨_, onMessage_testMessage _,
    handed_on_reads_eq_iff Crypto.plain_ideal new_testAuthenticator new_testAuthenticator rfl rfl
      (onMessage_testMessage _) (onMessage_testMessage _) rfl rfl⟩

/-- With another version the same signed message is accepted as well, and dropped afterwards. -/
theorem altered_version_handed_on :
    ∃ g g', ((⟨some testAuthenticator, []⟩ : GossipUDP _).onMessage
        (CookieAuthenticator.verifyGossip Crypto.plain) testMessage "127.0.0.1:6000" 0).2 = some g ∧
      ((⟨some testAuthenticator, []⟩ : GossipUDP _).onMessage
        (CookieAuthenticator.verifyGossip Crypto.plain)
        { testMessage with version := some (.num 2) } "127.0.0.1:6000" 0).2 = some g' ∧
      g.reads ≠ g'.reads ∧ ¬ g.Incompatible ∧ g'.Incompatible := by
  refine ⟨_, _, onMessage_testMessage _, onMessage_testMessage _, ?_, ?_, ?_⟩
  · intro h
    exact absurd (Json.num.inj (Option.some.inj (Prod.mk.inj h).1)) (by decide)
  · exact fun h => h.2 rfl
  · refine ⟨nofun, fun h => ?_⟩
    exact absurd (Json.num.inj (Option.some.inj h)) (by decide)

end

end Libeam.Auth
