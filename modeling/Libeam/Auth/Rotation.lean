import Libeam.Auth.Cookie
import Libeam.Lib.Transition
import Mathlib.Data.Fintype.Defs
/-!
# Rotating the cookie of a cluster

The operator installs the new cookie on every node, then activates it on every node, then removes
the old one from every node; each of the three phases begins when the one before is finished
everywhere.  Meanwhile the nodes sign messages and verify what reaches them, in any order.
-/

namespace Libeam.Auth

open Lib

variable {N K F : Type} [JsonNumber F]

inductive Phase where
  | install
  | activate
  | remove
  deriving DecidableEq, Repr

/-- A message as it was signed, with the phase at that moment. -/
structure Signed (F : Type) where
  message : AuthenticatedGossipMessage F
  phase : Phase

/-- The same nonce and the same digest: what the platform's comparison sees of a signature. -/
def AuthenticatedGossipMessage.SameSignature (m m' : AuthenticatedGossipMessage F) : Prop :=
  m.nonce = m'.nonce ∧ m.hmac.map ofHex = m'.hmac.map ofHex

structure Rotation (N K F : Type) where
  keyrings : N → KeyringAuthenticator K
  phase : Phase
  /-- The nodes that have made the step of the phase. -/
  done : N → Bool
  /-- History. -/
  signed : List (Signed F)
  accepted : List (N × AuthenticatedGossipMessage F)

inductive RotationAction (N F : Type) where
  | rotate (node : N)
  | next
  | sign (node : N) (message : GossipMessage F) (randomBytes : List UInt8)
  | verify (node : N) (message : AuthenticatedGossipMessage F) (now : Nat)

namespace Rotation

variable [DecidableEq N] (crypto : Crypto K) (newCookie : String)

def put (c : Rotation N K F) (node : N) (keyring : KeyringAuthenticator K) : Rotation N K F :=
  { c with keyrings := Function.update c.keyrings node keyring }

/-- The step that a phase asks of each node. -/
def advance (phase : Phase) (keyring : KeyringAuthenticator K) :
    Except String (KeyringAuthenticator K) :=
  match phase with
  | .install => keyring.install crypto newCookie
  | .activate => keyring.activate.map Prod.fst
  | .remove => .ok keyring.remove

variable [Fintype N]

/-- No message was signed with the nonce, and no cache has it. -/
def Fresh (c : Rotation N K F) (nonce : String) : Prop :=
  (∀ s ∈ c.signed, s.message.nonce ≠ some nonce) ∧
    ∀ node, ∀ auth ∈ (c.keyrings node).authenticators, auth.nonceCache.has nonce = false

omit [JsonNumber F] [DecidableEq N] in
instance (c : Rotation N K F) (nonce : String) : Decidable (c.Fresh nonce) :=
  inferInstanceAs (Decidable (_ ∧ _))

def step (c : Rotation N K F) : RotationAction N F → Option (Rotation N K F)
  | .rotate node =>
      if c.done node then none
      else
        match advance crypto newCookie c.phase (c.keyrings node) with
        | .error _ => none
        | .ok keyring =>
            some { c.put node keyring with done := Function.update c.done node true }
  | .next =>
      if ∀ node, c.done node = true then
        match c.phase with
        | .install => some { c with phase := .activate, done := fun _ => false }
        | .activate => some { c with phase := .remove, done := fun _ => false }
        | .remove => none
      else none
  | .sign node message randomBytes =>
      -- a nonce is of 16 bytes, and fresh
      if randomBytes.length = 16 ∧ c.Fresh (toHex randomBytes) then
        some { c with
          signed := c.signed ++
            [⟨(c.keyrings node).signGossip crypto message randomBytes, c.phase⟩] }
      else none
  | .verify node message now =>
      match (c.keyrings node).verifyGossip crypto message now with
      | (keyring, true) =>
          some { c.put node keyring with accepted := c.accepted ++ [(node, message)] }
      | (keyring, false) => some (c.put node keyring)

/-- Digests are not forged: what has a right digest and the nonce of a message that was signed is
that message. -/
def Unforged (c : Rotation N K F) : RotationAction N F → Prop
  | .verify node message _ => ∀ auth ∈ (c.keyrings node).authenticators,
      Matches crypto auth.hmacKey message →
      ∀ s ∈ c.signed, s.message.nonce = message.nonce → message.SameSignature s.message
  | _ => True

/-- Every node has the old cookie alone, with the salt that all share. -/
structure Initial (oldCookie salt : String) (c : Rotation N K F) : Prop where
  primary : ∀ node, (c.keyrings node).primary.hmacKey = crypto.hmacKey oldCookie salt
  secondary : ∀ node, (c.keyrings node).secondary = none
  salt_eq : ∀ node, (c.keyrings node).salt = salt
  phase : c.phase = .install
  done : ∀ node, c.done node = false
  signed : c.signed = []
  accepted : c.accepted = []

end Rotation

end Libeam.Auth
