import Libeam.Auth.Cookie
import Libeam.Lib.Log
import Libeam.Lib.Transition
/-!
# An authenticator over time

A node verifies messages, and may rotate its keyring meanwhile.  The clock never goes back; what
has been accepted, and when, is kept as history.
-/

namespace Libeam.Auth

open Lib

variable {K F : Type} [JsonNumber F]

structure Acceptance (F : Type) where
  message : AuthenticatedGossipMessage F
  time : Nat

/-- The same signed message: the same nonce with the same digest. -/
def Acceptance.same (x y : Acceptance F) : Bool :=
  x.message.nonce = y.message.nonce ∧ x.message.hmac = y.message.hmac

/-- A node whose cookie is never rotated. -/
structure Verifier (K F : Type) where
  auth : CookieAuthenticator K
  now : Nat
  accepted : List (Acceptance F)

/-- A verification at a time that is not before the last one. -/
def Verifier.step (crypto : Crypto K) (v : Verifier K F)
    (a : Nat × AuthenticatedGossipMessage F) : Option (Verifier K F) :=
  if v.now ≤ a.1 then
    match v.auth.verifyGossip crypto a.2 a.1 with
    | (auth, true) => some ⟨auth, a.1, v.accepted ++ [⟨a.2, a.1⟩]⟩
    | (auth, false) => some ⟨auth, a.1, v.accepted⟩
  else none

structure Receiver (K F : Type) where
  keyring : KeyringAuthenticator K
  now : Nat
  accepted : List (Acceptance F)

inductive KeyringCall (F : Type) where
  | install (cookie : String)
  | activate
  | remove
  | verifyGossip (message : AuthenticatedGossipMessage F)

namespace Receiver

variable (crypto : Crypto K)

/-- A call that throws leaves the keyring as it is. -/
def call (r : Receiver K F) (now : Nat) : KeyringCall F → Receiver K F
  | .install cookie =>
      match r.keyring.install crypto cookie with
      | .ok keyring => { r with now := now, keyring := keyring }
      | .error _ => { r with now := now }
  | .activate =>
      match r.keyring.activate with
      | .ok (keyring, _) => { r with now := now, keyring := keyring }
      | .error _ => { r with now := now }
  | .remove => { r with now := now, keyring := r.keyring.remove }
  | .verifyGossip message =>
      match r.keyring.verifyGossip crypto message now with
      | (keyring, true) =>
          { keyring := keyring, now := now, accepted := r.accepted ++ [⟨message, now⟩] }
      | (keyring, false) => { r with now := now, keyring := keyring }

/-- A call at a time that is not before the last one. -/
def step (r : Receiver K F) (a : Nat × KeyringCall F) : Option (Receiver K F) :=
  if r.now ≤ a.1 then some (r.call crypto a.1 a.2) else none

end Receiver

/-- No message is accepted again within `ttl` of its acceptance while fewer than `size` other
messages have been accepted in between. -/
def NoReplay (ttl size : Nat) (accepted : List (Acceptance F)) : Prop :=
  ∀ before x between y after, accepted = before ++ x :: (between ++ y :: after) → x.same y = true →
    y.time - x.time ≤ ttl → size ≤ (between.filter fun z => !z.same y).length

end Libeam.Auth
