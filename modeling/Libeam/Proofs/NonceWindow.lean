import Libeam.Proofs.Replay
/-!
# The window of a nonce

A cache forgets what has expired and, from its size on, what is oldest.  Until then a message
that was accepted is refused, and nothing is refused but what was accepted before.
-/

namespace Libeam.Auth

open Lib

variable {K F : Type} [JsonNumber F] {crypto : Crypto K}

/-- What the configuration of `auth` promises of the verifier's next answers. -/
structure NonceWindow (crypto : Crypto K) (auth : CookieAuthenticator K) (v : Verifier K F) :
    Prop where
  rejects : ∀ before x since message now, v.accepted = before ++ x :: since → v.now ≤ now →
    now ≤ x.time + auth.nonceTtlMs → x.same ⟨message, now⟩ = true →
    (since.filter fun z => !z.same ⟨message, now⟩).length < auth.nonceCacheMaxSize →
    (v.auth.verifyGossip crypto message now).2 = false
  accepts : ∀ (message : AuthenticatedGossipMessage F) now, v.now ≤ now →
    Matches crypto auth.hmacKey message →
    (∀ x ∈ v.accepted, x.message.nonce ≠ message.nonce) →
    (v.auth.verifyGossip crypto message now).2 = true
  bounded : v.auth.nonceCache.size ≤ auth.nonceCacheMaxSize

/-- What is kept of `auth` while it verifies. -/
structure Kept (crypto : Crypto K) (auth : CookieAuthenticator K) (v : Verifier K F) : Prop where
  hmacKey : v.auth.hmacKey = auth.hmacKey
  limit : v.auth.nonceCacheMaxSize = auth.nonceCacheMaxSize
  covers : Covers crypto auth.nonceTtlMs auth.nonceCacheMaxSize v.now v.accepted v.auth
  sorted : v.accepted.Pairwise fun x y => x.time ≤ y.time
  past : ∀ x ∈ v.accepted, x.time ≤ v.now
  signed : ∀ x ∈ v.accepted, Matches crypto auth.hmacKey x.message
  known : ∀ nonce ∈ v.auth.nonceCache.keys, ∃ x ∈ v.accepted, x.message.nonce = some nonce
  bounded : v.auth.nonceCache.size ≤ auth.nonceCacheMaxSize

namespace CookieAuthenticator

variable {auth : CookieAuthenticator K} {now : Nat} {nonce n : String}

theorem keys_remembered_subset (h : n ∈ (auth.remembered now).keys) : n ∈ auth.nonceCache.keys :=
  (List.filter_sublist.map Prod.fst).subset h

theorem mem_keys_remember (h : n ∈ (auth.remember nonce now).nonceCache.keys) :
    n = nonce ∨ n ∈ auth.nonceCache.keys := by
  have hset : n ∈ ((auth.remembered now).set nonce now).keys :=
    ((List.drop_sublist _ _).map Prod.fst).subset h
  exact (OrderedMap.mem_keys_set.1 hset).symm.imp_right keys_remembered_subset

theorem size_remember_le : (auth.remember nonce now).nonceCache.size ≤ auth.nonceCacheMaxSize := by
  show (((auth.remembered now).set nonce now).entries.drop
    (((auth.remembered now).set nonce now).entries.length - auth.nonceCacheMaxSize)).length ≤ _
  rw [List.length_drop]
  omega

end CookieAuthenticator

namespace Kept

variable {auth : CookieAuthenticator K} {v t : Verifier K F} {now : Nat}
  {message : AuthenticatedGossipMessage F}

theorem wait (h : Kept crypto auth v) (hnow : v.now ≤ now) :
    Kept crypto auth { v with now := now } :=
  { h with
    covers := h.covers.later hnow
    past := fun x hx => (h.past x hx).trans hnow }

theorem evict (h : Kept crypto auth v) :
    Kept crypto auth { v with auth := v.auth.evictExpiredNonces v.now } :=
  { h with
    covers := h.covers.evict
    known := fun nonce hn => h.known nonce (CookieAuthenticator.keys_remembered_subset hn)
    bounded := (List.length_filter_le _ _).trans h.bounded }

theorem remember (h : Kept crypto auth v) {nonce : String}
    (hmatches : Matches crypto auth.hmacKey message) (hnonce : message.nonce = some nonce)
    (hnew : nonce ∉ (v.auth.remembered v.now).keys) :
    Kept crypto auth
      ⟨v.auth.remember nonce v.now, v.now, v.accepted ++ [⟨message, v.now⟩]⟩ where
  hmacKey := h.hmacKey
  limit := h.limit
  covers := h.covers.remember hnonce hnew
  sorted := List.pairwise_append.2 ⟨h.sorted, List.pairwise_singleton _ _, fun x hx y hy =>
    List.mem_singleton.1 hy ▸ h.past x hx⟩
  past x hx := (List.mem_append.1 hx).elim (h.past x) fun hx => by rw [List.mem_singleton.1 hx]
  signed x hx := (List.mem_append.1 hx).elim (h.signed x) fun hx =>
    List.mem_singleton.1 hx ▸ hmatches
  known n hn := by
    rcases CookieAuthenticator.mem_keys_remember hn with rfl | hold
    · exact ⟨_, List.mem_append_right _ (List.mem_singleton_self _), hnonce⟩
    · obtain ⟨x, hx, hxn⟩ := h.known n hold
      exact ⟨x, List.mem_append_left _ hx, hxn⟩
  bounded := h.limit ▸ CookieAuthenticator.size_remember_le

theorem step (h : Kept crypto auth v) {a : Nat × AuthenticatedGossipMessage F}
    (hstep : v.step crypto a = some t) : Kept crypto auth t := by
  obtain ⟨now, message⟩ := a
  rw [Verifier.step] at hstep
  split at hstep
  case isFalse => exact nomatch hstep
  case isTrue hnow =>
    have hwait := h.wait hnow
    rcases v.auth.verifyGossip_cases message now with
      ⟨nonce, hmatches, hnonce, hnew, hcase⟩ | ⟨_, -, -, -, hcase⟩ | ⟨-, hcase⟩ <;>
      rw [hcase] at hstep <;> obtain rfl := Option.some.inj hstep
    · exact hwait.remember (h.hmacKey ▸ hmatches) hnonce hnew
    · exact hwait.evict
    · exact hwait

theorem nonceWindow (h : Kept crypto auth v) : NonceWindow crypto auth v where
  rejects before x since message now hsplit hnow htime hsame hfew := by
    -- the acceptance to look at is the last one of this message
    obtain ⟨A, z, B, hlast, hz, hB⟩ := last_same since hsame
    obtain ⟨hnonce, -⟩ := Acceptance.same_iff.1 hz
    have hmem : v.accepted = before ++ A ++ z :: B := by
      rw [hsplit, hlast, List.append_assoc]
    have hin : z ∈ v.accepted := hmem ▸ List.mem_append_right _ List.mem_cons_self
    have hage : x.time ≤ z.time := by
      cases A with
      | nil => rw [(List.cons.inj hlast).1]
      | cons a A =>
          have hsorted := h.sorted
          rw [hsplit, hlast, ← (List.cons.inj hlast).1] at hsorted
          exact List.rel_of_pairwise_cons (List.pairwise_append.1 hsorted).2.1
            (List.mem_append_right A List.mem_cons_self)
    have hmatches := h.signed z hin
    obtain ⟨nonce, -, hn, -⟩ := id hmatches
    have hcached := (h.covers.later hnow).evict.nonce_mem hmem hn (h.hmacKey ▸ hmatches)
      (by omega) (by omega)
    refine Bool.eq_false_iff.2 fun htrue => ?_
    obtain ⟨-, hfresh⟩ := CookieAuthenticator.verifyGossip_eq_true_iff.1 htrue
    exact hfresh nonce (hnonce.symm.trans hn) hcached
  accepts message now _ hmatches hother := by
    refine CookieAuthenticator.verifyGossip_eq_true_iff.2 ⟨h.hmacKey ▸ hmatches, ?_⟩
    intro nonce hnonce hold
    obtain ⟨x, hx, hxn⟩ := h.known nonce (CookieAuthenticator.keys_remembered_subset hold)
    exact hother x hx (hxn.trans hnonce.symm)
  bounded := h.bounded

theorem new {cookie : String} {options : CookieAuthenticatorOptions}
    (hnew : CookieAuthenticator.new crypto cookie options = .ok auth) (start : Nat) :
    Kept (F := F) crypto auth ⟨auth, start, []⟩ := by
  obtain ⟨-, hempty, -, -⟩ := CookieAuthenticator.new_eq_ok hnew
  exact {
    hmacKey := rfl
    limit := rfl
    covers := ⟨le_rfl, le_rfl, fun A x B _ hsplit => by simp at hsplit⟩
    sorted := List.Pairwise.nil
    past := nofun
    signed := nofun
    known := fun nonce hn => by
      rw [hempty] at hn
      exact absurd hn List.not_mem_nil
    bounded := by
      rw [hempty]
      exact Nat.zero_le _ }

end Kept

/-- Whatever an authenticator is given to verify, and whenever, its window holds. -/
theorem nonceWindow_throughout {cookie : String} {options : CookieAuthenticatorOptions}
    {auth : CookieAuthenticator K}
    (hnew : CookieAuthenticator.new crypto cookie options = .ok auth) (start : Nat)
    (calls : List (Nat × AuthenticatedGossipMessage F)) :
    Transition.Throughout (Verifier.step crypto) (NonceWindow crypto auth) ⟨auth, start, []⟩
      calls :=
  (Transition.throughout_of_invariant (G := fun _ _ => True)
    (fun _ _ _ hv _ hstep => hv.step hstep) (Kept.new hnew start)
    (Transition.along_of_forall_mem (P := fun _ => True) (fun _ _ => trivial) _)).mono
    fun _ hv => hv.nonceWindow

theorem nonceWindow_throughout_test :
    Transition.Throughout (Verifier.step Crypto.plain)
      (NonceWindow Crypto.plain testAuthenticator) ⟨testAuthenticator, 0, []⟩
      [(1, testMessage), (1, testMessage), (10002, testMessage)] :=
  nonceWindow_throughout new_testAuthenticator 0 _

end Libeam.Auth
