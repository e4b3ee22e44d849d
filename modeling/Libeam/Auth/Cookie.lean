import Libeam.Lib.Json
import Libeam.Lib.OrderedMap
/-!
# Authenticated gossip

A gossip message is sent with a nonce and a keyed digest of its contents.  The receiver
computes the digest again, and remembers the nonces it has accepted, so that a message that is
delivered twice is taken once.  Key derivation and the digest itself are the platform's, and
are parameters here; a message is what has been decoded from a datagram, whose members may be
missing.
-/

namespace Libeam.Auth

open Lib

structure CurveKeyPair where
  publicKey : String
  secretKey : String
  deriving DecidableEq, Repr

/-- `deriveKeys` and the HMAC, for keys of type `K`. -/
structure Crypto (K : Type) where
  hmacKey : String → String → K
  curveKeyPair : String → String → CurveKeyPair
  hmac : K → List Char → List UInt8

/-- What is expected of a message authentication code and of the derivation of its keys: neither
has collisions, and no digest is empty. -/
structure Crypto.Ideal {K : Type} (crypto : Crypto K) : Prop where
  hmacKey_injective : ∀ salt, Function.Injective fun cookie => crypto.hmacKey cookie salt
  hmac_injective : ∀ {k k' : K} {t t'}, crypto.hmac k t = crypto.hmac k' t' → k = k' ∧ t = t'
  hmac_ne_nil : ∀ (k : K) t, crypto.hmac k t ≠ []

structure GossipMessage (F : Type) where
  version : Option (Json F)
  senderId : Option (Json F)
  peers : Option (Json F)
  deriving Repr

structure AuthenticatedGossipMessage (F : Type) extends GossipMessage F where
  nonce : Option String
  hmac : Option String
  deriving Repr

/-! ## Hexadecimal texts -/

/-- `buffer.toString("hex")`. -/
def toHex (bytes : List UInt8) : String :=
  String.ofList
    (bytes.flatMap fun b => [Json.hexDigit (b.toNat / 16), Json.hexDigit (b.toNat % 16)])

def ofHexChars : List Char → List UInt8
  | a :: b :: cs =>
      match Json.hexValue a, Json.hexValue b with
      | some a, some b => UInt8.ofNat (a * 16 + b) :: ofHexChars cs
      | _, _ => []
  | _ => []

/-- `Buffer.from(text, "hex")`, which stops at the first pair that is none of two digits. -/
def ofHex (text : String) : List UInt8 := ofHexChars text.toList

theorem ofHex_toHex (bytes : List UInt8) : ofHex (toHex bytes) = bytes := by
  rw [ofHex, toHex, String.toList_ofList]
  induction bytes with
  | nil => rfl
  | cons b bytes ih =>
      have hb := b.toNat_lt
      rw [List.flatMap_cons, List.cons_append, List.singleton_append, ofHexChars,
        Json.hexValue_hexDigit _ (by omega), Json.hexValue_hexDigit _ (by omega)]
      dsimp only
      rw [ih, show b.toNat / 16 * 16 + b.toNat % 16 = b.toNat by omega, UInt8.ofNat_toNat]

/-! ## One cookie -/

section

variable {K F : Type} [JsonNumber F]

def MIN_COOKIE_LENGTH : Nat := 16

def DEFAULT_NONCE_TTL_MS : Nat := 10000

def DEFAULT_NONCE_CACHE_MAX_SIZE : Nat := 10000

structure CookieAuthenticatorOptions where
  nonceTtlMs : Option Nat
  nonceCacheMaxSize : Option Nat
  salt : Option String

structure CookieAuthenticator (K : Type) where
  hmacKey : K
  nonceTtlMs : Nat
  nonceCacheMaxSize : Nat
  nonceCache : OrderedMap String Nat
  curveKeyPair : CurveKeyPair

/-- `text.length`, which counts UTF-16 units. -/
def utf16Length (text : String) : Nat :=
  (text.toList.map fun c => if c.toNat < 0x10000 then 1 else 2).sum

/-- The text that the digest covers.  A member that is missing is left out of it. -/
def gossipPayload (message : GossipMessage F) (nonce : String) : List Char :=
  Json.stringify (.obj
    ((message.senderId.map fun v => ("senderId", v)).toList ++
      (message.peers.map fun v => ("peers", v)).toList ++ [("nonce", .str nonce)]))

/-- The digest of the message is the one that the key gives. -/
def Matches (crypto : Crypto K) (k : K) (message : AuthenticatedGossipMessage F) : Prop :=
  ∃ nonce hmac, message.nonce = some nonce ∧ message.hmac = some hmac ∧ nonce ≠ "" ∧ hmac ≠ "" ∧
    crypto.hmac k (gossipPayload message.toGossipMessage nonce) = ofHex hmac

namespace CookieAuthenticator

def new (crypto : Crypto K) (cookie : String) (options : CookieAuthenticatorOptions) :
    Except String (CookieAuthenticator K) :=
  if utf16Length cookie < MIN_COOKIE_LENGTH then
    .error "Cookie must be at least 16 characters for secure key derivation."
  else
    let salt := options.salt.getD "libeam-v2"
    .ok { hmacKey := crypto.hmacKey cookie salt
          nonceTtlMs := options.nonceTtlMs.getD DEFAULT_NONCE_TTL_MS
          nonceCacheMaxSize := options.nonceCacheMaxSize.getD DEFAULT_NONCE_CACHE_MAX_SIZE
          nonceCache := .empty
          curveKeyPair := crypto.curveKeyPair cookie salt }

variable (crypto : Crypto K)

def computeGossipHmac (auth : CookieAuthenticator K) (message : GossipMessage F)
    (nonce : String) : String :=
  toHex (crypto.hmac auth.hmacKey (gossipPayload message nonce))

/-- Signing with the random bytes that were drawn for the nonce. -/
def signGossip (auth : CookieAuthenticator K) (message : GossipMessage F)
    (randomBytes : List UInt8) : AuthenticatedGossipMessage F :=
  let nonce := toHex randomBytes
  { message with nonce := some nonce, hmac := some (auth.computeGossipHmac crypto message nonce) }

def expired (auth : CookieAuthenticator K) (now : Nat) (entry : String × Nat) : Bool :=
  auth.nonceTtlMs < now - entry.2

def evictExpiredNonces (auth : CookieAuthenticator K) (now : Nat) : CookieAuthenticator K :=
  { auth with nonceCache := auth.nonceCache.filter fun entry => !auth.expired now entry }

/-- The oldest entries go until the cache is within its size. -/
def evictOverflowNonces (auth : CookieAuthenticator K) : CookieAuthenticator K :=
  { auth with
    nonceCache := auth.nonceCache.drop (auth.nonceCache.size - auth.nonceCacheMaxSize) }

/-- The authenticator afterwards, and whether the message is accepted. -/
def verifyGossip (auth : CookieAuthenticator K) (message : AuthenticatedGossipMessage F)
    (now : Nat) : CookieAuthenticator K × Bool :=
  match message.nonce, message.hmac with
  | some nonce, some hmac =>
      if nonce = "" ∨ hmac = "" then (auth, false)
      else
        let expectedHmac := auth.computeGossipHmac crypto message.toGossipMessage nonce
        if ofHex expectedHmac ≠ ofHex hmac then (auth, false)
        else
          let auth := auth.evictExpiredNonces now
          if auth.nonceCache.has nonce then (auth, false)
          else
            ({ auth with nonceCache := auth.nonceCache.set nonce now }.evictOverflowNonces, true)
  | _, _ => (auth, false)

end CookieAuthenticator

/-! ## A keyring -/

structure KeyringAuthenticator (K : Type) where
  primary : CookieAuthenticator K
  secondary : Option (CookieAuthenticator K)
  salt : String

namespace KeyringAuthenticator

def authenticators (keyring : KeyringAuthenticator K) : List (CookieAuthenticator K) :=
  keyring.primary :: keyring.secondary.toList

def new (crypto : Crypto K) (cookie : String) (options : CookieAuthenticatorOptions) :
    Except String (KeyringAuthenticator K) :=
  (CookieAuthenticator.new crypto cookie options).map fun primary =>
    { primary := primary, secondary := none, salt := options.salt.getD "libeam-v2" }

variable (crypto : Crypto K)

def install (keyring : KeyringAuthenticator K) (cookie : String) :
    Except String (KeyringAuthenticator K) :=
  match keyring.secondary with
  | some _ => .error "A pending cookie is already installed. Call activate() or remove() first."
  | none =>
      (CookieAuthenticator.new crypto cookie ⟨none, none, some keyring.salt⟩).map fun secondary =>
        { keyring with secondary := some secondary }

def activate (keyring : KeyringAuthenticator K) :
    Except String (KeyringAuthenticator K × CurveKeyPair) :=
  match keyring.secondary with
  | none => .error "No pending cookie installed. Call install() first."
  | some secondary =>
      .ok ({ keyring with primary := secondary, secondary := some keyring.primary },
        secondary.curveKeyPair)

def remove (keyring : KeyringAuthenticator K) : KeyringAuthenticator K :=
  { keyring with secondary := none }

def signGossip (keyring : KeyringAuthenticator K) (message : GossipMessage F)
    (randomBytes : List UInt8) : AuthenticatedGossipMessage F :=
  keyring.primary.signGossip crypto message randomBytes

/-- The secondary is asked about what the primary does not accept. -/
def verifyGossip (keyring : KeyringAuthenticator K) (message : AuthenticatedGossipMessage F)
    (now : Nat) : KeyringAuthenticator K × Bool :=
  match keyring.primary.verifyGossip crypto message now with
  | (primary, true) => ({ keyring with primary := primary }, true)
  | (primary, false) =>
      match keyring.secondary with
      | none => ({ keyring with primary := primary }, false)
      | some secondary =>
          let (secondary, accepted) := secondary.verifyGossip crypto message now
          ({ keyring with primary := primary, secondary := some secondary }, accepted)

end KeyringAuthenticator

end

/-! ## The message handler of a gossip socket

A decoded message is handed on to the protocol when the authenticator, if there is one, accepts
it.  What is handed on is built anew from three members, of which the protocol then reads two.
-/

section

variable {A F : Type}

structure GossipUDP (A : Type) where
  auth : Option A
  warnedUnauthorizedPeers : List String

namespace GossipUDP

/-- The socket's `message` handler: what is emitted, and the socket afterwards. -/
def onMessage (verifyGossip : A → AuthenticatedGossipMessage F → Nat → A × Bool)
    (udp : GossipUDP A) (decoded : AuthenticatedGossipMessage F) (peer : String) (now : Nat) :
    GossipUDP A × Option (GossipMessage F) :=
  let gossipMessage := ⟨decoded.version, decoded.senderId, decoded.peers⟩
  match udp.auth with
  | none => (udp, some gossipMessage)
  | some auth =>
      match verifyGossip auth decoded now with
      | (auth, true) => ({ udp with auth := some auth }, some gossipMessage)
      | (auth, false) =>
          ({ udp with
              auth := some auth
              warnedUnauthorizedPeers := udp.warnedUnauthorizedPeers ∪ [peer] }, none)

end GossipUDP

/-- What `handleGossipMessage` reads of a message: the version it checks and the peers that it
merges. -/
def GossipMessage.reads (message : GossipMessage F) : Option (Json F) × Option (Json F) :=
  (message.version, message.peers)

/-- The check by which `handleGossipMessage` drops a message. -/
def GossipMessage.Incompatible [One F] (message : GossipMessage F) : Prop :=
  message.version ≠ none ∧ message.version ≠ some (.num 1)

end

end Libeam.Auth
