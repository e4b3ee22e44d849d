import Libeam.Auth.Rotation
import Libeam.Proofs.GossipAuth
/-!
# A rotation partitions nobody

What the keyring of a node holds is determined by the phase and by whether the node has made its
step.  In every phase all nodes hold a key under which each of them may be signing, so a message
of the phase is accepted by every node that has not accepted it yet.
-/

namespace Libeam.Auth

open Lib

variable {N K F : Type} [JsonNumber F] {crypto : Crypto K}

/-! ## Caches and keyrings -/

/-- A verification adds at most the nonce that it accepts. -/
theorem CookieAuthenticator.mem_keys_verifyGossip {auth auth' : CookieAuthenticator K}
    {message : AuthenticatedGossipMessage F} {now : Nat} {accepted : Bool}
    (h : auth.verifyGossip crypto message now = (auth', accepted)) {nonce : String}
    (hmem : nonce ∈ auth'.nonceCache.keys) : nonce ∈ auth.nonceCache.keys ∨
      accepted = true ∧ message.nonce = some nonce ∧ Matches crypto auth.hmacKey message := by
  have hevict (hmem : nonce ∈ (auth.remembered now).keys) : nonce ∈ auth.nonceCache.keys :=
    (List.filter_sublist.map Prod.fst).subset hmem
  rcases auth.verifyGossip_cases message now with
    ⟨n, hmatches, hnonce, -, hcase⟩ | ⟨_, -, -, -, hcase⟩ | ⟨-, hcase⟩ <;> cases hcase.symm.trans h
  · have hset : nonce ∈ ((auth.remembered now).set n now).keys :=
      ((List.drop_sublist _ _).map Prod.fst).subset hmem
    rcases OrderedMap.mem_keys_set.1 hset with hold | rfl
    · exact Or.inl (hevict hold)
    · exact Or.inr ⟨rfl, hnonce, hmatches⟩
  · exact Or.inl (hevict hmem)
  · exact Or.inl hmem

namespace KeyringAuthenticator

variable {keyring keyring' : KeyringAuthenticator K} {message : AuthenticatedGossipMessage F}
  {now : Nat} {accepted : Bool}

/-- The keys of a keyring, the primary one first. -/
def keys (keyring : KeyringAuthenticator K) : K × Option K :=
  (keyring.primary.hmacKey, keyring.secondary.map CookieAuthenticator.hmacKey)

theorem mem_authenticators {auth : CookieAuthenticator K} :
    auth ∈ keyring.authenticators ↔ auth = keyring.primary ∨ keyring.secondary = some auth := by
  rw [authenticators, List.mem_cons, Option.mem_toList]

/-- A message is accepted by the first authenticator that has its key and not its nonce. -/
theorem verifyGossip_eq_true_iff : (keyring.verifyGossip crypto message now).2 = true ↔
    ∃ auth ∈ keyring.authenticators, (auth.verifyGossip crypto message now).2 = true := by
  rcases keyring.verifyGossip_cases crypto message now with
    ⟨primary, hprimary, h⟩ | ⟨primary, hprimary, hsec, h⟩ |
    ⟨primary, sec, sec', accepted, hprimary, hsec, hverify, h⟩ <;>
    rw [h, authenticators, List.exists_mem_cons_iff, hprimary]
  · exact iff_of_true rfl (Or.inl rfl)
  · simp [hsec]
  · simp [hsec, hverify]

/-- What a verification leaves: the keys, the salt, and caches with at most one nonce more. -/
theorem verifyGossip_spec (h : keyring.verifyGossip crypto message now = (keyring', accepted)) :
    keyring'.keys = keyring.keys ∧ keyring'.salt = keyring.salt ∧
      ∀ auth' ∈ keyring'.authenticators, ∀ nonce ∈ auth'.nonceCache.keys,
        (∃ auth ∈ keyring.authenticators, nonce ∈ auth.nonceCache.keys) ∨
          accepted = true ∧ message.nonce = some nonce ∧
            ∃ auth ∈ keyring.authenticators, Matches crypto auth.hmacKey message := by
  have hkept {auth auth' : CookieAuthenticator K} {b : Bool} {nonce : String}
      (hauth : auth ∈ keyring.authenticators) (hb : b = true → accepted = true)
      (hverify : auth.verifyGossip crypto message now = (auth', b))
      (hmem : nonce ∈ auth'.nonceCache.keys) :
      (∃ auth ∈ keyring.authenticators, nonce ∈ auth.nonceCache.keys) ∨
        accepted = true ∧ message.nonce = some nonce ∧
          ∃ auth ∈ keyring.authenticators, Matches crypto auth.hmacKey message := by
    rcases CookieAuthenticator.mem_keys_verifyGossip hverify hmem with
      hold | ⟨htrue, hnonce, hmatches⟩
    · exact Or.inl ⟨auth, hauth, hold⟩
    · exact Or.inr ⟨hb htrue, hnonce, auth, hauth, hmatches⟩
  have hin : keyring.primary ∈ keyring.authenticators := mem_authenticators.2 (Or.inl rfl)
  rcases keyring.verifyGossip_cases crypto message now with
    ⟨primary, hprimary, hcase⟩ | ⟨primary, hprimary, hsec, hcase⟩ |
    ⟨primary, sec, sec', b, hprimary, hsec, hverify, hcase⟩ <;> cases hcase.symm.trans h <;>
    have hkey := CookieAuthenticator.hmacKey_of_verifyGossip hprimary
  · refine ⟨by rw [keys, keys, hkey], rfl, fun auth' hauth' nonce hmem => ?_⟩
    rcases mem_authenticators.1 hauth' with rfl | hsec
    · exact hkept hin id hprimary hmem
    · exact Or.inl ⟨auth', mem_authenticators.2 (Or.inr hsec), hmem⟩
  · refine ⟨by rw [keys, keys, hkey], rfl, fun auth' hauth' nonce hmem => ?_⟩
    rcases mem_authenticators.1 hauth' with rfl | hsome
    · exact hkept (b := false) hin nofun hprimary hmem
    · exact nomatch hsec.symm.trans hsome
  · have hkey' := CookieAuthenticator.hmacKey_of_verifyGossip hverify
    refine ⟨by rw [keys, keys, hkey, hsec, Option.map_some, Option.map_some, hkey'], rfl,
      fun auth' hauth' nonce hmem => ?_⟩
    rcases mem_authenticators.1 hauth' with rfl | hsome
    · exact hkept (b := false) hin nofun hprimary hmem
    · cases hsome
      exact hkept (mem_authenticators.2 (Or.inr hsec)) id hverify hmem

end KeyringAuthenticator

namespace Rotation

/-- The order of the phases. -/
def rank : Phase → Nat
  | .install => 0
  | .activate => 1
  | .remove => 2

/-- The keys of a node, by the phase and whether it has made its step. -/
def heldKeys (old new : K) : Phase → Bool → K × Option K
  | .install, false => (old, none)
  | .install, true => (old, some new)
  | .activate, false => (old, some new)
  | .activate, true => (new, some old)
  | .remove, false => (new, some old)
  | .remove, true => (new, none)

/-- The keys under which messages are signed in a phase. -/
def signingKeys (old new : K) : Phase → List K
  | .install => [old]
  | .activate => [old, new]
  | .remove => [new]

structure Sound (crypto : Crypto K) (oldCookie newCookie salt : String) (c : Rotation N K F) :
    Prop where
  keys : ∀ node, (c.keyrings node).keys =
    heldKeys (crypto.hmacKey oldCookie salt) (crypto.hmacKey newCookie salt) c.phase (c.done node)
  salt_eq : ∀ node, (c.keyrings node).salt = salt
  matched : ∀ s ∈ c.signed, ∃ k ∈ signingKeys (crypto.hmacKey oldCookie salt)
    (crypto.hmacKey newCookie salt) s.phase, Matches crypto k s.message
  past : ∀ s ∈ c.signed, rank s.phase ≤ rank c.phase
  distinct : c.signed.Pairwise fun s s' => s.message.nonce ≠ s'.message.nonce
  cached : ∀ node, ∀ auth ∈ (c.keyrings node).authenticators, ∀ s ∈ c.signed, ∀ nonce,
    s.message.nonce = some nonce → nonce ∈ auth.nonceCache.keys →
    ∃ m, (node, m) ∈ c.accepted ∧ m.SameSignature s.message

/-- The step of a phase takes the keys of a node from those before it to those after it, and adds
no nonce to a cache. -/
theorem advance_spec {oldCookie newCookie salt : String} {phase : Phase}
    {keyring keyring' : KeyringAuthenticator K}
    (hkeys : keyring.keys =
      heldKeys (crypto.hmacKey oldCookie salt) (crypto.hmacKey newCookie salt) phase false)
    (hsalt : keyring.salt = salt) (h : advance crypto newCookie phase keyring = .ok keyring') :
    keyring'.keys =
        heldKeys (crypto.hmacKey oldCookie salt) (crypto.hmacKey newCookie salt) phase true ∧
      keyring'.salt = salt ∧ ∀ auth ∈ keyring'.authenticators,
        auth ∈ keyring.authenticators ∨ auth.nonceCache = .empty := by
  obtain ⟨primary, secondary, s⟩ := keyring
  cases hsalt
  cases phase with
  | install =>
      obtain ⟨hprimary, hsec⟩ := Prod.mk.inj hkeys
      cases Option.map_eq_none_iff.1 hsec
      rw [advance, KeyringAuthenticator.install] at h
      dsimp only at h
      cases hnew : CookieAuthenticator.new crypto newCookie ⟨none, none, some s⟩ with
      | error e =>
          rw [hnew] at h
          exact nomatch h
      | ok sec =>
          rw [hnew] at h
          cases h
          obtain ⟨hkey, hempty, -⟩ := CookieAuthenticator.new_eq_ok hnew
          refine ⟨Prod.ext hprimary (congrArg some hkey), rfl, fun auth hauth => ?_⟩
          rcases KeyringAuthenticator.mem_authenticators.1 hauth with rfl | hsome
          · exact Or.inl List.mem_cons_self
          · cases hsome
            exact Or.inr hempty
  | activate =>
      obtain ⟨hprimary, hsec⟩ := Prod.mk.inj hkeys
      obtain ⟨sec, rfl, hkey⟩ := Option.map_eq_some_iff.1 hsec
      cases h
      refine ⟨Prod.ext hkey (congrArg some hprimary), rfl, fun auth hauth => Or.inl ?_⟩
      rcases KeyringAuthenticator.mem_authenticators.1 hauth with rfl | hsome
      · exact KeyringAuthenticator.mem_authenticators.2 (Or.inr rfl)
      · cases hsome
        exact KeyringAuthenticator.mem_authenticators.2 (Or.inl rfl)
  | remove =>
      cases h
      refine ⟨Prod.ext (Prod.mk.inj hkeys).1 rfl, rfl, fun auth hauth => Or.inl ?_⟩
      rcases KeyringAuthenticator.mem_authenticators.1 hauth with rfl | hsome
      · exact List.mem_cons_self
      · exact nomatch hsome

theorem heldKeys_mem_signingKeys (old new : K) (phase : Phase) (done : Bool) :
    (heldKeys old new phase done).1 ∈ signingKeys old new phase := by
  cases phase <;> cases done <;> simp [heldKeys, signingKeys]

theorem signingKeys_held (old new : K) {phase : Phase} (done : Bool) {k : K}
    (hk : k ∈ signingKeys old new phase) : k = (heldKeys old new phase done).1 ∨
      (heldKeys old new phase done).2 = some k := by
  cases phase <;> cases done <;> simp_all [heldKeys, signingKeys, eq_comm, or_comm]

namespace Sound

variable [DecidableEq N] {oldCookie newCookie salt : String} {c t : Rotation N K F}
  {node : N} {keyring : KeyringAuthenticator K}

omit [JsonNumber F] in
theorem keyrings_put_self (c : Rotation N K F) (node : N) (keyring : KeyringAuthenticator K) :
    (c.put node keyring).keyrings node = keyring := Function.update_self ..

omit [JsonNumber F] in
theorem keyrings_put_of_ne (c : Rotation N K F) {node n : N} (h : n ≠ node)
    (keyring : KeyringAuthenticator K) :
    (c.put node keyring).keyrings n = c.keyrings n := Function.update_of_ne h ..

theorem rotate (h : Sound crypto oldCookie newCookie salt c) (hdone : c.done node = false)
    (hadvance : advance crypto newCookie c.phase (c.keyrings node) = .ok keyring) :
    Sound crypto oldCookie newCookie salt
      { c.put node keyring with done := Function.update c.done node true } := by
  obtain ⟨hkeys, hsalt, hcaches⟩ := advance_spec (hdone ▸ h.keys node) (h.salt_eq node) hadvance
  refine { h with keys := fun n => ?_, salt_eq := fun n => ?_, cached := fun n auth hauth => ?_ }
  · change ((c.put node keyring).keyrings n).keys =
      heldKeys _ _ c.phase (Function.update c.done node true n)
    by_cases hn : n = node
    · subst hn
      rw [keyrings_put_self, Function.update_self]
      exact hkeys
    · rw [keyrings_put_of_ne c hn, Function.update_of_ne hn]
      exact h.keys n
  · by_cases hn : n = node
    · subst hn
      rw [keyrings_put_self]
      exact hsalt
    · rw [keyrings_put_of_ne c hn]
      exact h.salt_eq n
  · by_cases hn : n = node
    · subst hn
      rw [keyrings_put_self] at hauth
      rcases hcaches auth hauth with hold | hempty
      · exact h.cached n auth hold
      · intro s _ nonce _ hmem
        rw [hempty] at hmem
        exact nomatch hmem
    · rw [keyrings_put_of_ne c hn] at hauth
      exact h.cached n auth hauth

omit [DecidableEq N] in
theorem next (h : Sound crypto oldCookie newCookie salt c) (hdone : ∀ node, c.done node = true)
    {phase : Phase} (hphase : ∀ old new : K, heldKeys old new c.phase true =
      heldKeys old new phase false) (hrank : rank c.phase ≤ rank phase) :
    Sound crypto oldCookie newCookie salt
      { c with phase := phase, done := fun _ => false } :=
  { h with
    keys := fun n => by
      rw [h.keys n, hdone n]
      exact hphase _ _
    past := fun s hs => (h.past s hs).trans hrank }

omit [DecidableEq N] in
theorem sign [Fintype N] (hideal : crypto.Ideal) (h : Sound crypto oldCookie newCookie salt c)
    (message : GossipMessage F) {randomBytes : List UInt8} (hlength : randomBytes.length = 16)
    (hfresh : c.Fresh (toHex randomBytes)) :
    Sound crypto oldCookie newCookie salt
      { c with signed := c.signed ++
          [⟨(c.keyrings node).signGossip crypto message randomBytes, c.phase⟩] } := by
  refine { h with matched := fun s hs => ?_, past := fun s hs => ?_, distinct := ?_, cached := ?_ }
  · rcases List.mem_append.1 hs with hs | hs
    · exact h.matched s hs
    · cases List.mem_singleton.1 hs
      have hnonempty : randomBytes ≠ [] := by
        rintro rfl
        cases hlength
      refine ⟨(c.keyrings node).primary.hmacKey, ?_,
        (c.keyrings node).primary.matches_signGossip hideal message hnonempty _⟩
      have hheld := heldKeys_mem_signingKeys (crypto.hmacKey oldCookie salt)
        (crypto.hmacKey newCookie salt) c.phase (c.done node)
      rwa [← h.keys node] at hheld
  · rcases List.mem_append.1 hs with hs | hs
    · exact h.past s hs
    · rw [List.mem_singleton.1 hs]
  · refine List.pairwise_append.2 ⟨h.distinct, List.pairwise_singleton _ _, fun s hs s' hs' => ?_⟩
    rw [List.mem_singleton.1 hs']
    exact hfresh.1 s hs
  · intro n auth hauth s hs nonce hnonce hmem
    rcases List.mem_append.1 hs with hs | hs
    · exact h.cached n auth hauth s hs nonce hnonce hmem
    · cases List.mem_singleton.1 hs
      cases hnonce
      have hnot := hfresh.2 n auth hauth
      rw [OrderedMap.has_iff.2 hmem] at hnot
      exact nomatch hnot

theorem verify {message : AuthenticatedGossipMessage F} {now : Nat} {accepted : Bool}
    (h : Sound crypto oldCookie newCookie salt c)
    (hunforged : c.Unforged crypto (.verify node message now))
    (hverify : (c.keyrings node).verifyGossip crypto message now = (keyring, accepted)) :
    Sound crypto oldCookie newCookie salt
      { c.put node keyring with
        accepted := if accepted then c.accepted ++ [(node, message)] else c.accepted } := by
  obtain ⟨hkeys, hsalt, hcaches⟩ := KeyringAuthenticator.verifyGossip_spec hverify
  have hgrows {e} (he : e ∈ c.accepted) :
      e ∈ if accepted then c.accepted ++ [(node, message)] else c.accepted := by
    split
    · exact List.mem_append_left _ he
    · exact he
  refine { h with keys := fun n => ?_, salt_eq := fun n => ?_, cached := ?_ }
  · by_cases hn : n = node
    · subst hn
      rw [keyrings_put_self, hkeys]
      exact h.keys n
    · rw [keyrings_put_of_ne c hn]
      exact h.keys n
  · by_cases hn : n = node
    · subst hn
      rw [keyrings_put_self, hsalt]
      exact h.salt_eq n
    · rw [keyrings_put_of_ne c hn]
      exact h.salt_eq n
  · intro n auth hauth s hs nonce hnonce hmem
    by_cases hn : n = node
    · subst hn
      rw [keyrings_put_self] at hauth
      rcases hcaches auth hauth nonce hmem with
        ⟨auth', hauth', hold⟩ | ⟨haccepted, hmessage, auth', hauth', hmatches⟩
      · obtain ⟨m, hm, hsame⟩ := h.cached n auth' hauth' s hs nonce hnonce hold
        exact ⟨m, hgrows hm, hsame⟩
      · refine ⟨message, ?_, hunforged auth' hauth' hmatches s hs (hnonce.trans hmessage.symm)⟩
        rw [haccepted]
        exact List.mem_append_right _ List.mem_cons_self
    · rw [keyrings_put_of_ne c hn] at hauth
      obtain ⟨m, hm, hsame⟩ := h.cached n auth hauth s hs nonce hnonce hmem
      exact ⟨m, hgrows hm, hsame⟩

theorem step [Fintype N] (hideal : crypto.Ideal) (h : Sound crypto oldCookie newCookie salt c)
    {a : RotationAction N F} (hunforged : c.Unforged crypto a)
    (hstep : c.step crypto newCookie a = some t) : Sound crypto oldCookie newCookie salt t := by
  cases a with
  | rotate node =>
      rw [Rotation.step] at hstep
      split at hstep
      · exact nomatch hstep
      · split at hstep
        · exact nomatch hstep
        · cases hstep
          exact h.rotate (Bool.not_eq_true _ ▸ ‹_›) ‹_›
  | next =>
      rw [Rotation.step] at hstep
      split at hstep
      · rename_i hdone
        split at hstep <;> rename_i hphase
        · cases hstep
          exact h.next hdone (by rw [hphase]; exact fun _ _ => rfl) (by rw [hphase]; decide)
        · cases hstep
          exact h.next hdone (by rw [hphase]; exact fun _ _ => rfl) (by rw [hphase]; decide)
        · exact nomatch hstep
      · exact nomatch hstep
  | sign node message randomBytes =>
      rw [Rotation.step] at hstep
      split at hstep
      · cases hstep
        exact h.sign hideal message (‹_ ∧ _› : _ ∧ _).1 (‹_ ∧ _› : _ ∧ _).2
      · exact nomatch hstep
  | verify node message now =>
      rw [Rotation.step] at hstep
      split at hstep <;> cases hstep
      · exact h.verify hunforged ‹_›
      · exact h.verify hunforged ‹_›

section
omit [DecidableEq N]

theorem initial (hinit : c.Initial crypto oldCookie salt) :
    Sound crypto oldCookie newCookie salt c where
  keys node := by
    rw [KeyringAuthenticator.keys, hinit.primary, hinit.secondary, hinit.phase, hinit.done]
    rfl
  salt_eq := hinit.salt_eq
  matched s hs := by rw [hinit.signed] at hs; exact nomatch hs
  past s hs := by rw [hinit.signed] at hs; exact nomatch hs
  distinct := by rw [hinit.signed]; exact List.Pairwise.nil
  cached _ _ _ s hs := by rw [hinit.signed] at hs; exact nomatch hs

/-- A message of the current phase is accepted by every node that has not accepted it. -/
theorem accepts (h : Sound crypto oldCookie newCookie salt c) {s : Signed F} (hs : s ∈ c.signed)
    (hphase : s.phase = c.phase)
    (hnew : ∀ m, (node, m) ∈ c.accepted → ¬ m.SameSignature s.message) (now : Nat) :
    ((c.keyrings node).verifyGossip crypto s.message now).2 = true := by
  obtain ⟨k, hk, hmatches⟩ := h.matched s hs
  obtain ⟨auth, hauth, hkey⟩ : ∃ auth ∈ (c.keyrings node).authenticators, auth.hmacKey = k := by
    have hheld := signingKeys_held _ _ (c.done node) (hphase ▸ hk)
    rw [← h.keys node] at hheld
    rcases hheld with hprimary | hsec
    · exact ⟨_, List.mem_cons_self, hprimary.symm⟩
    · obtain ⟨sec, hsec, hkey⟩ := Option.map_eq_some_iff.1 hsec
      exact ⟨sec, KeyringAuthenticator.mem_authenticators.2 (Or.inr hsec), hkey⟩
  refine KeyringAuthenticator.verifyGossip_eq_true_iff.2 ⟨auth, hauth,
    CookieAuthenticator.verifyGossip_eq_true_iff.2 ⟨hkey ▸ hmatches, fun nonce hnonce hmem => ?_⟩⟩
  obtain ⟨m, hm, hsame⟩ := h.cached node auth hauth s hs nonce hnonce
    ((List.filter_sublist.map Prod.fst).subset hmem)
  exact hnew m hm hsame

/-- A node that has removed the old cookie rejects what was signed with it. -/
theorem rejects (hideal : crypto.Ideal) (hne : newCookie ≠ oldCookie)
    (h : Sound crypto oldCookie newCookie salt c) (hphase : c.phase = .remove)
    (hdone : c.done node = true) {message : AuthenticatedGossipMessage F}
    (hmatches : Matches crypto (crypto.hmacKey oldCookie salt) message) (now : Nat) :
    ((c.keyrings node).verifyGossip crypto message now).2 = false := by
  have hkeys := h.keys node
  rw [hphase, hdone] at hkeys
  obtain ⟨hprimary, hsec⟩ := Prod.mk.inj hkeys
  rw [← Bool.not_eq_true, KeyringAuthenticator.verifyGossip_eq_true_iff]
  rintro ⟨auth, hauth, haccepts⟩
  have hown := (CookieAuthenticator.verifyGossip_eq_true_iff.1 haccepts).1
  have hkey := hown.key_unique hideal hmatches
  rcases KeyringAuthenticator.mem_authenticators.1 hauth with rfl | hsome
  · exact hne (hideal.hmacKey_injective salt (hprimary.symm.trans hkey))
  · rw [hsome] at hsec
    exact nomatch hsec

end

end Sound

variable [DecidableEq N] [Fintype N]

/-- Throughout a rotation every node accepts what is signed in the same phase, and a node that has
removed the old cookie rejects whatever was signed with it. -/
theorem no_partition (hideal : crypto.Ideal) {oldCookie newCookie salt : String}
    (hne : newCookie ≠ oldCookie) {c d : Rotation N K F} (hinit : c.Initial crypto oldCookie salt)
    {actions : List (RotationAction N F)}
    (hunforged : Transition.Along (Rotation.step crypto newCookie) (Unforged crypto) c actions)
    (hrun : Transition.run (Rotation.step crypto newCookie) c actions = some d) :
    (∀ s ∈ d.signed, s.phase = d.phase → ∀ node,
      (∀ m, (node, m) ∈ d.accepted → ¬ m.SameSignature s.message) →
      ∀ now, ((d.keyrings node).verifyGossip crypto s.message now).2 = true) ∧
    ∀ node, d.phase = .remove → d.done node = true →
      ∀ message : AuthenticatedGossipMessage F,
        Matches crypto (crypto.hmacKey oldCookie salt) message →
        ∀ now, ((d.keyrings node).verifyGossip crypto message now).2 = false := by
  have hsound : Sound crypto oldCookie newCookie salt d :=
    Transition.run_invariant (fun c a t hc ha hstep => Sound.step hideal hc ha hstep)
      (Sound.initial hinit) hunforged hrun
  exact ⟨fun s hs hphase node hnew now => hsound.accepts hs hphase hnew now,
    fun node hphase hdone message hmatches now =>
      hsound.rejects hideal hne hphase hdone hmatches now⟩

/-- Two nodes with the cookie of the tests. -/
def twoNodes : Rotation Bool (List Char) Int where
  keyrings _ := testKeyring 10000
  phase := .install
  done _ := false
  signed := []
  accepted := []

/-- Up to the moment when one of the two nodes has removed the old cookie, and the other signs. -/
def rotateTwo : List (RotationAction Bool Int) :=
  [.rotate false, .sign true ⟨none, none, none⟩ (List.replicate 16 0), .rotate true, .next,
    .rotate true, .rotate false, .next, .rotate false,
    .sign true ⟨none, none, none⟩ (List.replicate 16 1)]

theorem no_partition_rotateTwo :
    ∃ d, Transition.run (Rotation.step Crypto.plain "my-new-secret-cookie-long!!") twoNodes
        rotateTwo = some d ∧ d.done false = true ∧
      (∀ s ∈ d.signed, s.phase = d.phase → ∀ node,
        (∀ m, (node, m) ∈ d.accepted → ¬ m.SameSignature s.message) →
        ∀ now, ((d.keyrings node).verifyGossip Crypto.plain s.message now).2 = true) ∧
      ∀ node, d.phase = .remove → d.done node = true →
        ∀ message : AuthenticatedGossipMessage Int,
          Matches Crypto.plain
            (Crypto.plain.hmacKey "my-secret-cookie-long-enough" "libeam-v2") message →
          ∀ now, ((d.keyrings node).verifyGossip Crypto.plain message now).2 = false := by
  have hrun : ∃ d, Transition.run (Rotation.step Crypto.plain "my-new-secret-cookie-long!!")
      twoNodes rotateTwo = some d ∧ d.done false = true := ⟨_, rfl, rfl⟩
  obtain ⟨d, hd, hdone⟩ := hrun
  refine ⟨d, hd, hdone, no_partition Crypto.plain_ideal (by decide)
    ⟨fun _ => rfl, fun _ => rfl, fun _ => rfl, rfl, fun _ => rfl, rfl, rfl⟩ ?_ hd⟩
  refine (Transition.along_of_forall_mem (P := fun a => ∀ n m now, a ≠ .verify n m now)
    (by simp [rotateTwo]) _).mono fun c a ha => ?_
  cases a with
  | verify node message now => exact absurd rfl (ha node message now)
  | _ => trivial

end Rotation

end Libeam.Auth
