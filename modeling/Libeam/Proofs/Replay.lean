import Libeam.Auth.Receiver
import Libeam.Proofs.GossipAuth
/-!
# Replays across a rotation

Every key has its own cache of nonces.  As long as a cache stays with its key, and is as large
and keeps its entries as long as configured, no message is accepted twice.
-/

namespace Libeam.Auth

open Lib

variable {K F : Type} [JsonNumber F] {crypto : Crypto K}

/-! ## The history -/

omit [JsonNumber F] in
theorem Acceptance.same_iff {x y : Acceptance F} : x.same y = true ↔
    x.message.nonce = y.message.nonce ∧ x.message.hmac = y.message.hmac := decide_eq_true_iff

omit [JsonNumber F] in
/-- After the last acceptance of a message only others have been accepted. -/
theorem last_same {y : Acceptance F} (between : List (Acceptance F)) {x : Acceptance F}
    (hx : x.same y = true) : ∃ A z B, x :: between = A ++ z :: B ∧ z.same y = true ∧
      B.length ≤ (between.filter fun z => !z.same y).length := by
  induction between generalizing x with
  | nil => exact ⟨[], x, [], rfl, hx, Nat.le_refl 0⟩
  | cons b between ih =>
      by_cases hb : b.same y = true
      · obtain ⟨A, z, B, hsplit, hz, hB⟩ := ih hb
        refine ⟨x :: A, z, B, by rw [hsplit, List.cons_append], hz, ?_⟩
        rwa [List.filter_cons_of_neg (by simp [hb])]
      · have hfilter : ((b :: between).filter fun z => !z.same y).length =
            (between.filter fun z => !z.same y).length + 1 := by
          rw [List.filter_cons_of_pos (by simp [hb]), List.length_cons]
        obtain ⟨A, z, B, hsplit, hz, hB⟩ := ih hx
        rw [hfilter]
        cases A with
        | nil =>
            obtain ⟨rfl, rfl⟩ := List.cons.inj hsplit
            exact ⟨[], x, b :: between, rfl, hx, Nat.succ_le_succ hB⟩
        | cons a A =>
            obtain ⟨rfl, rfl⟩ := List.cons.inj hsplit
            exact ⟨x :: b :: A, z, B, rfl, hz, Nat.le_succ_of_le hB⟩

/-! ## One cache -/

/-- The cache of `auth` covers what was accepted under its key: whatever is recent enough is in
it, with no more entries behind it than there have been acceptances since. -/
structure Covers (crypto : Crypto K) (ttl size now : Nat) (accepted : List (Acceptance F))
    (auth : CookieAuthenticator K) : Prop where
  ttl_le : ttl ≤ auth.nonceTtlMs
  size_le : size ≤ auth.nonceCacheMaxSize
  cached : ∀ A x B nonce, accepted = A ++ x :: B → x.message.nonce = some nonce →
    Matches crypto auth.hmacKey x.message → now - x.time ≤ ttl → B.length < size →
    ∃ pre post, auth.nonceCache.entries = pre ++ (nonce, x.time) :: post ∧
      post.length ≤ B.length

namespace Covers

variable {ttl size now now' : Nat} {accepted : List (Acceptance F)}
  {auth : CookieAuthenticator K}

theorem later (h : Covers crypto ttl size now accepted auth) (hle : now ≤ now') :
    Covers crypto ttl size now' accepted auth :=
  { h with
    cached := fun A x B nonce hsplit hnonce hmatches htime =>
      h.cached A x B nonce hsplit hnonce hmatches (by omega) }

/-- What is recent is not evicted with the expired entries. -/
theorem evict (h : Covers crypto ttl size now accepted auth) :
    Covers crypto ttl size now accepted (auth.evictExpiredNonces now) where
  ttl_le := h.ttl_le
  size_le := h.size_le
  cached A x B nonce hsplit hnonce hmatches htime hlength := by
    obtain ⟨pre, post, hentries, hpost⟩ := h.cached A x B nonce hsplit hnonce hmatches htime hlength
    have hkeep : auth.expired now (nonce, x.time) = false := by
      have hle := h.ttl_le
      exact decide_eq_false (show ¬ auth.nonceTtlMs < now - x.time by omega)
    refine ⟨pre.filter fun e => !auth.expired now e, post.filter fun e => !auth.expired now e, ?_,
      (List.length_filter_le _ _).trans hpost⟩
    rw [CookieAuthenticator.evictExpiredNonces, OrderedMap.entries_filter, hentries,
      List.filter_append, List.filter_cons_of_pos (by simp [hkeep])]

/-- An acceptance under another key. -/
theorem other (h : Covers crypto ttl size now accepted auth) {y : Acceptance F}
    (hy : ¬ Matches crypto auth.hmacKey y.message) :
    Covers crypto ttl size now (accepted ++ [y]) auth :=
  { h with
    cached := fun A x B nonce hsplit hnonce hmatches htime hlength => by
      rcases snoc_eq_split hsplit with ⟨rfl, rfl, rfl⟩ | ⟨B', rfl, rfl⟩
      · exact absurd hmatches hy
      · rw [List.length_append, List.length_singleton] at hlength ⊢
        obtain ⟨pre, post, hentries, hpost⟩ :=
          h.cached A x B' nonce rfl hnonce hmatches htime (by omega)
        exact ⟨pre, post, hentries, by omega⟩ }

theorem nonce_mem (h : Covers crypto ttl size now accepted auth) {A B : List (Acceptance F)}
    {x : Acceptance F} {nonce : String} (hsplit : accepted = A ++ x :: B)
    (hnonce : x.message.nonce = some nonce) (hmatches : Matches crypto auth.hmacKey x.message)
    (htime : now - x.time ≤ ttl) (hlength : B.length < size) :
    nonce ∈ auth.nonceCache.keys := by
  obtain ⟨pre, post, hentries, -⟩ := h.cached A x B nonce hsplit hnonce hmatches htime hlength
  exact OrderedMap.mem_keys.2 ⟨x.time, hentries ▸ List.mem_append_right pre List.mem_cons_self⟩

/-- An entry that has fewer than the cache's size behind it is not among the overflow. -/
theorem drop_overflow {pre post : List (String × Nat)} {e : String × Nat} {n : Nat}
    (h : post.length < n) :
    (pre ++ e :: post).drop ((pre ++ e :: post).length - n) =
      pre.drop ((pre ++ e :: post).length - n) ++ e :: post := by
  refine List.drop_append_of_le_length ?_
  rw [List.length_append, List.length_cons]
  omega

/-- An acceptance by this cache itself. -/
theorem remember (h : Covers crypto ttl size now accepted auth) {message}
    {nonce : String} (hnonce : message.nonce = some nonce)
    (hnew : nonce ∉ (auth.remembered now).keys) :
    Covers crypto ttl size now (accepted ++ [⟨message, now⟩]) (auth.remember nonce now) where
  ttl_le := h.ttl_le
  size_le := h.size_le
  cached A x B n hsplit hn hmatches htime hlength := by
    have hentries : (auth.remember nonce now).nonceCache.entries =
        ((auth.remembered now).entries ++ [(nonce, now)]).drop
          (((auth.remembered now).entries ++ [(nonce, now)]).length -
            auth.nonceCacheMaxSize) := by
      rw [← OrderedMap.entries_set_of_not_mem hnew]
      rfl
    have hsize := h.size_le
    rw [hentries]
    rcases snoc_eq_split hsplit with ⟨rfl, rfl, rfl⟩ | ⟨B', rfl, rfl⟩
    · cases hnonce.symm.trans hn
      exact ⟨_, [], drop_overflow (by rw [List.length_nil] at hlength ⊢; omega), Nat.le_refl 0⟩
    · rw [List.length_append, List.length_singleton] at hlength
      obtain ⟨pre, post, hpre, hpost⟩ :=
        h.evict.cached A x B' n rfl hn hmatches htime (by omega)
      have happend : (auth.remembered now).entries ++ [(nonce, now)] =
          pre ++ (n, x.time) :: (post ++ [(nonce, now)]) := by
        rw [CookieAuthenticator.remembered, hpre, List.append_assoc, List.cons_append]
      rw [happend]
      refine ⟨_, post ++ [(nonce, now)], drop_overflow ?_, ?_⟩ <;>
        simp only [List.length_append, List.length_singleton] <;> omega

end Covers

section

variable {ttl size now : Nat} {accepted : List (Acceptance F)} {auth auth' : CookieAuthenticator K}
  {message : AuthenticatedGossipMessage F}

theorem Covers.rejected (h : Covers crypto ttl size now accepted auth)
    (hverify : auth.verifyGossip crypto message now = (auth', false)) :
    Covers crypto ttl size now accepted auth' := by
  rcases auth.verifyGossip_cases message now with
    ⟨_, -, -, -, hcase⟩ | ⟨_, -, -, -, hcase⟩ | ⟨-, hcase⟩ <;> cases hcase.symm.trans hverify
  · exact h.evict
  · exact h

theorem Covers.accepts (h : Covers crypto ttl size now accepted auth)
    (hverify : auth.verifyGossip crypto message now = (auth', true)) :
    Matches crypto auth.hmacKey message ∧ auth'.hmacKey = auth.hmacKey ∧
      Covers crypto ttl size now (accepted ++ [⟨message, now⟩]) auth' := by
  rcases auth.verifyGossip_cases message now with
    ⟨nonce, hmatches, hnonce, hnew, hcase⟩ | ⟨_, -, -, -, hcase⟩ | ⟨-, hcase⟩ <;>
    cases hcase.symm.trans hverify
  exact ⟨hmatches, rfl, h.remember hnonce hnew⟩

/-- A cache that covers its key accepts nothing twice. -/
theorem Covers.noReplay (hideal : crypto.Ideal) (h : Covers crypto ttl size now accepted auth)
    (hsorted : accepted.Pairwise fun x y => x.time ≤ y.time)
    (hgenuine : ∀ x ∈ accepted, ∃ k, Matches crypto k x.message)
    (hnone : NoReplay ttl size accepted)
    (hverify : auth.verifyGossip crypto message now = (auth', true)) :
    NoReplay ttl size (accepted ++ [⟨message, now⟩]) := by
  obtain ⟨hmatches, hfresh⟩ := CookieAuthenticator.verifyGossip_eq_true_iff.1
    (congrArg Prod.snd hverify)
  intro before x between y after hsplit hsame htime
  rw [← List.cons_append, ← List.append_assoc] at hsplit
  rcases snoc_eq_split hsplit with ⟨-, rfl, hinit⟩ | ⟨after', -, hinit⟩
  · by_contra hfew
    -- the acceptance to look at is the last one of this message
    obtain ⟨A, z, B, hlast, hz, hB⟩ := last_same between hsame
    obtain ⟨hnonce, hhmac⟩ := Acceptance.same_iff.1 hz
    obtain ⟨nonce, hmac, hn, -⟩ := id hmatches
    have hmem : accepted = before ++ A ++ z :: B := by
      rw [← hinit, hlast, List.append_assoc]
    obtain ⟨k, hk⟩ := hgenuine z (hmem ▸ List.mem_append_right _ List.mem_cons_self)
    obtain ⟨rfl, -⟩ := hk.payload_eq hideal hmatches hhmac (hnonce.trans hn) hn
    have hage : now - z.time ≤ ttl := by
      have hle : x.time ≤ z.time := by
        cases A with
        | nil => rw [(List.cons.inj hlast).1]
        | cons a A =>
            rw [← hinit, hlast, ← (List.cons.inj hlast).1] at hsorted
            exact List.rel_of_pairwise_cons (List.pairwise_append.1 hsorted).2.1
              (List.mem_append_right A List.mem_cons_self)
      have htime : now - x.time ≤ ttl := htime
      omega
    exact hfresh nonce hn (h.evict.nonce_mem hmem (hnonce.trans hn) hk hage (by omega))
  · refine hnone before x between y after' ?_ hsame htime
    rw [hinit, List.append_assoc, List.cons_append]

end

/-! ## The keyring -/

theorem Receiver.call_verifyGossip {r : Receiver K F}
    {keyring : KeyringAuthenticator K} {message : AuthenticatedGossipMessage F} {now : Nat}
    (h : r.keyring.verifyGossip crypto message now = (keyring, true)) :
    r.call crypto now (.verifyGossip message) =
      ⟨keyring, now, r.accepted ++ [⟨message, now⟩]⟩ := by
  rw [Receiver.call, h]

/-- A cookie is installed with the configured limits within the defaults, when its key is not the
primary one and nothing recent has been accepted under it. -/
def InstallKeeps (crypto : Crypto K) (ttl size : Nat) (r : Receiver K F)
    (a : Nat × KeyringCall F) : Prop :=
  match a.2 with
  | .install cookie =>
      r.keyring.secondary = none → MIN_COOKIE_LENGTH ≤ utf16Length cookie →
        ttl ≤ DEFAULT_NONCE_TTL_MS ∧ size ≤ DEFAULT_NONCE_CACHE_MAX_SIZE ∧
          crypto.hmacKey cookie r.keyring.salt ≠ r.keyring.primary.hmacKey ∧
          ∀ before x after, r.accepted = before ++ x :: after →
            Matches crypto (crypto.hmacKey cookie r.keyring.salt) x.message →
            ttl < a.1 - x.time ∨ size ≤ after.length
  | _ => True

structure Sound (crypto : Crypto K) (ttl size : Nat) (r : Receiver K F) : Prop where
  apart : ∀ sec ∈ r.keyring.secondary, sec.hmacKey ≠ r.keyring.primary.hmacKey
  primary : Covers crypto ttl size r.now r.accepted r.keyring.primary
  secondary : ∀ sec ∈ r.keyring.secondary, Covers crypto ttl size r.now r.accepted sec
  sorted : r.accepted.Pairwise fun x y => x.time ≤ y.time
  past : ∀ x ∈ r.accepted, x.time ≤ r.now
  genuine : ∀ x ∈ r.accepted, ∃ k, Matches crypto k x.message
  noReplay : NoReplay ttl size r.accepted

namespace Sound

variable {ttl size now : Nat} {r : Receiver K F}

theorem wait (h : Sound crypto ttl size r) (hnow : r.now ≤ now) :
    Sound crypto ttl size { r with now := now } where
  apart := h.apart
  primary := h.primary.later hnow
  secondary sec hsec := (h.secondary sec hsec).later hnow
  sorted := h.sorted
  past x hx := (h.past x hx).trans hnow
  genuine := h.genuine
  noReplay := h.noReplay

/-- What an acceptance adds to the history. -/
theorem accept (hideal : crypto.Ideal) (h : Sound crypto ttl size r)
    {auth auth' : CookieAuthenticator K} (hauth : Covers crypto ttl size r.now r.accepted auth)
    {message : AuthenticatedGossipMessage F}
    (hverify : auth.verifyGossip crypto message r.now = (auth', true))
    {keyring : KeyringAuthenticator K}
    (hapart : ∀ sec ∈ keyring.secondary, sec.hmacKey ≠ keyring.primary.hmacKey)
    (hprimary : Covers crypto ttl size r.now (r.accepted ++ [⟨message, r.now⟩]) keyring.primary)
    (hsecondary : ∀ sec ∈ keyring.secondary,
      Covers crypto ttl size r.now (r.accepted ++ [⟨message, r.now⟩]) sec) :
    Sound crypto ttl size
      { r with keyring := keyring, accepted := r.accepted ++ [⟨message, r.now⟩] } where
  apart := hapart
  primary := hprimary
  secondary := hsecondary
  sorted := List.pairwise_append.2 ⟨h.sorted, List.pairwise_singleton _ _, fun x hx y hy =>
    List.mem_singleton.1 hy ▸ h.past x hx⟩
  past x hx := (List.mem_append.1 hx).elim (h.past x) fun hx =>
    (by rw [List.mem_singleton.1 hx])
  genuine x hx := (List.mem_append.1 hx).elim (h.genuine x) fun hx =>
    List.mem_singleton.1 hx ▸ ⟨auth.hmacKey, (hauth.accepts hverify).1⟩
  noReplay := hauth.noReplay hideal h.sorted h.genuine h.noReplay hverify

theorem install (h : Sound crypto ttl size r) {cookie : String}
    (hkeeps : InstallKeeps crypto ttl size r (r.now, .install cookie))
    {keyring : KeyringAuthenticator K} (hinstall : r.keyring.install crypto cookie = .ok keyring) :
    Sound crypto ttl size { r with keyring := keyring } := by
  rw [KeyringAuthenticator.install] at hinstall
  cases hsec : r.keyring.secondary with
  | some sec =>
      rw [hsec] at hinstall
      exact nomatch hinstall
  | none =>
      rw [hsec] at hinstall
      dsimp only at hinstall
      cases hnew : CookieAuthenticator.new crypto cookie ⟨none, none, some r.keyring.salt⟩ with
      | error e =>
          rw [hnew] at hinstall
          exact nomatch hinstall
      | ok sec =>
          rw [hnew] at hinstall
          cases hinstall
          obtain ⟨hkey, hempty, httl, hsize⟩ := CookieAuthenticator.new_eq_ok hnew
          obtain ⟨hle, hle', hother, hold⟩ := hkeeps hsec (CookieAuthenticator.length_of_new hnew)
          refine { h with apart := ?_, secondary := ?_ }
          · rintro _ ⟨⟩ heq
            exact hother (hkey.symm.trans heq)
          · rintro _ ⟨⟩
            refine ⟨httl ▸ hle, hsize ▸ hle', fun A x B nonce hsplit _ hmatches htime hlength => ?_⟩
            rcases hold A x B hsplit (hkey ▸ hmatches) with hlate | hmany
            · exact absurd htime (Nat.not_le.2 hlate)
            · exact absurd hlength (Nat.not_lt.2 hmany)

theorem verifyGossip (hideal : crypto.Ideal) (h : Sound crypto ttl size r)
    (message : AuthenticatedGossipMessage F) :
    Sound crypto ttl size (r.call crypto r.now (.verifyGossip message)) := by
  have hkeys (sec) (hsec : sec ∈ r.keyring.secondary) :
      Matches crypto sec.hmacKey message → ¬ Matches crypto r.keyring.primary.hmacKey message :=
    fun hm hm' => h.apart sec hsec (hm.key_unique hideal hm')
  rw [Receiver.call]
  rcases r.keyring.verifyGossip_cases crypto message r.now with
    ⟨primary, hprimary, hcase⟩ | ⟨primary, hprimary, hsec, hcase⟩ |
    ⟨primary, sec, sec', accepted, hprimary, hsec, hverify, hcase⟩ <;> rw [hcase]
  · obtain ⟨hmatches, hkey, hcovers⟩ := h.primary.accepts hprimary
    refine h.accept hideal h.primary hprimary (fun sec hsec => ?_) hcovers fun sec hsec => ?_
    · rw [hkey]
      exact h.apart sec hsec
    · exact (h.secondary sec hsec).other fun hm => hkeys sec hsec hm hmatches
  · refine { h with apart := ?_, primary := h.primary.rejected hprimary }
    rw [hsec]
    exact nofun
  · have hkey := CookieAuthenticator.hmacKey_of_verifyGossip hprimary
    have hcovers := h.primary.rejected hprimary
    have hapart : sec'.hmacKey ≠ primary.hmacKey := by
      rw [CookieAuthenticator.hmacKey_of_verifyGossip hverify, hkey]
      exact h.apart sec hsec
    cases accepted with
    | false =>
        refine { h with apart := ?_, primary := hcovers, secondary := ?_ }
        · rintro _ ⟨⟩
          exact hapart
        · rintro _ ⟨⟩
          exact (h.secondary sec hsec).rejected hverify
    | true =>
        obtain ⟨hmatches, -, hcovers'⟩ := (h.secondary sec hsec).accepts hverify
        refine h.accept hideal (h.secondary sec hsec) hverify ?_ ?_ ?_
        · rintro _ ⟨⟩
          exact hapart
        · exact hcovers.other (hkey ▸ hkeys sec hsec hmatches)
        · rintro _ ⟨⟩
          exact hcovers'

theorem call (hideal : crypto.Ideal) (h : Sound crypto ttl size r) {c : KeyringCall F}
    (hkeeps : InstallKeeps crypto ttl size r (r.now, c)) :
    Sound crypto ttl size (r.call crypto r.now c) := by
  cases c with
  | install cookie =>
      rw [Receiver.call]
      split
      · exact h.install hkeeps ‹_›
      · exact h
  | activate =>
      rw [Receiver.call, KeyringAuthenticator.activate]
      cases hsec : r.keyring.secondary with
      | none => exact h
      | some sec =>
          refine { h with apart := ?_, primary := h.secondary sec hsec, secondary := ?_ }
          · rintro _ ⟨⟩ heq
            exact h.apart sec hsec heq.symm
          · rintro _ ⟨⟩
            exact h.primary
  | remove => exact { h with apart := nofun, secondary := nofun }
  | verifyGossip message => exact h.verifyGossip hideal message

theorem step (hideal : crypto.Ideal) (h : Sound crypto ttl size r) {a : Nat × KeyringCall F}
    (hkeeps : InstallKeeps crypto ttl size r a) {t : Receiver K F}
    (hstep : r.step crypto a = some t) : Sound crypto ttl size t := by
  rw [Receiver.step] at hstep
  split at hstep
  · cases hstep
    have hcall := (h.wait (show r.now ≤ a.1 from ‹_›)).call hideal (c := a.2) hkeeps
    rwa [show ({ r with now := a.1 } : Receiver K F).call crypto a.1 a.2 =
      r.call crypto a.1 a.2 by cases a.2 <;> rfl] at hcall
  · exact nomatch hstep

theorem new {cookie : String} {options : CookieAuthenticatorOptions}
    {keyring : KeyringAuthenticator K}
    (hnew : KeyringAuthenticator.new crypto cookie options = .ok keyring) (start : Nat) :
    Sound (F := F) crypto (options.nonceTtlMs.getD DEFAULT_NONCE_TTL_MS)
      (options.nonceCacheMaxSize.getD DEFAULT_NONCE_CACHE_MAX_SIZE) ⟨keyring, start, []⟩ := by
  rw [KeyringAuthenticator.new] at hnew
  cases hauth : CookieAuthenticator.new crypto cookie options with
  | error e =>
      rw [hauth] at hnew
      exact nomatch hnew
  | ok primary =>
      rw [hauth] at hnew
      cases hnew
      obtain ⟨-, -, httl, hsize⟩ := CookieAuthenticator.new_eq_ok hauth
      exact {
        apart := nofun
        primary := ⟨httl.ge, hsize.ge, fun A x B _ hsplit => by simp at hsplit⟩
        secondary := nofun
        sorted := List.Pairwise.nil
        past := nofun
        genuine := nofun
        noReplay := fun A x B y C hsplit => by simp at hsplit }

end Sound

/-- In a run whose installations keep what has been accepted, no message is accepted again within
the configured limits. -/
theorem noReplay_of_installs_keep (hideal : crypto.Ideal) {cookie : String}
    {options : CookieAuthenticatorOptions} {keyring : KeyringAuthenticator K}
    (hnew : KeyringAuthenticator.new crypto cookie options = .ok keyring) (start : Nat)
    {calls : List (Nat × KeyringCall F)}
    (hkeeps : Transition.Along (Receiver.step crypto)
      (InstallKeeps crypto (options.nonceTtlMs.getD DEFAULT_NONCE_TTL_MS)
        (options.nonceCacheMaxSize.getD DEFAULT_NONCE_CACHE_MAX_SIZE)) ⟨keyring, start, []⟩ calls) :
    Transition.Throughout (Receiver.step crypto)
      (fun r => NoReplay (options.nonceTtlMs.getD DEFAULT_NONCE_TTL_MS)
        (options.nonceCacheMaxSize.getD DEFAULT_NONCE_CACHE_MAX_SIZE) r.accepted)
      ⟨keyring, start, []⟩ calls := by
  refine (Transition.throughout_of_invariant
    (fun r a t hr ha hstep => Sound.step hideal hr ha hstep) (Sound.new hnew start) hkeeps).mono
    fun r hr => hr.noReplay

theorem noReplay_of_installs_keep_rotation :
    Transition.Throughout (Receiver.step Crypto.plain)
      (fun r => NoReplay 10000 10000 r.accepted) ⟨testKeyring 10000, 0, []⟩
      [(0, .install "my-new-secret-cookie-long!!"), (1, .verifyGossip testMessage), (2, .activate),
        (3, .verifyGossip testMessage)] := by
  have hnew : KeyringAuthenticator.new Crypto.plain "my-secret-cookie-long-enough"
      ⟨none, none, none⟩ = .ok (testKeyring 10000) := rfl
  refine noReplay_of_installs_keep Crypto.plain_ideal hnew 0
    ⟨?_, fun _ _ => ⟨trivial, fun _ _ => ⟨trivial, fun _ _ => ⟨trivial, fun _ _ => trivial⟩⟩⟩⟩
  exact fun _ _ => ⟨by decide, by decide, by decide +kernel, fun A x B hsplit => by simp at hsplit⟩

/-- The authenticator of the cookie that the tests install, with the default limits. -/
def installedAuthenticator : CookieAuthenticator (List Char) where
  hmacKey := Crypto.plain.hmacKey "my-new-secret-cookie-long!!" "libeam-v2"
  nonceTtlMs := 10000
  nonceCacheMaxSize := 10000
  nonceCache := .empty
  curveKeyPair := Crypto.plain.curveKeyPair "my-new-secret-cookie-long!!" "libeam-v2"

def rotatedMessage : AuthenticatedGossipMessage Int :=
  installedAuthenticator.signGossip Crypto.plain ⟨none, none, none⟩ [0]

theorem matches_rotatedMessage :
    Matches Crypto.plain installedAuthenticator.hmacKey rotatedMessage :=
  CookieAuthenticator.matches_signGossip Crypto.plain_ideal installedAuthenticator _ (by decide) _

theorem not_matches_rotatedMessage :
    ¬ Matches Crypto.plain testAuthenticator.hmacKey rotatedMessage := fun h =>
  absurd (h.key_unique Crypto.plain_ideal matches_rotatedMessage) (by decide +kernel)

/-- Nonces are to be kept for 20 s, and those of an installed cookie are kept for 10 s. -/
theorem replayed_after_install :
    KeyringAuthenticator.new Crypto.plain "my-secret-cookie-long-enough"
      ⟨some 20000, none, none⟩ = .ok (testKeyring 20000) ∧
    ∃ r : Receiver (List Char) Int,
      Transition.run (Receiver.step Crypto.plain) ⟨testKeyring 20000, 0, []⟩
        [(0, .install "my-new-secret-cookie-long!!"), (0, .verifyGossip rotatedMessage),
          (15000, .verifyGossip rotatedMessage)] = some r ∧
      ¬ NoReplay 20000 10000 r.accepted := by
  have hverify (sec : CookieAuthenticator (List Char)) {now now' : Nat}
      {accepted : List (Acceptance Int)} (hnow : now ≤ now')
      (hkey : sec.hmacKey = installedAuthenticator.hmacKey)
      (hnew : "00" ∉ (sec.remembered now').keys) :
      Receiver.step Crypto.plain ⟨{ testKeyring 20000 with secondary := some sec }, now, accepted⟩
          (now', .verifyGossip rotatedMessage) =
        some ⟨{ testKeyring 20000 with secondary := some (sec.remember "00" now') }, now',
          accepted ++ [⟨rotatedMessage, now'⟩]⟩ := by
    have hsecondary : ({ testKeyring 20000 with
        secondary := some sec } : KeyringAuthenticator (List Char)).secondary = some sec := rfl
    have hcase := KeyringAuthenticator.verifyGossip_secondary hsecondary
      not_matches_rotatedMessage (hkey ▸ matches_rotatedMessage) rfl hnew
    rw [Receiver.step, if_pos hnow]
    exact congrArg some (Receiver.call_verifyGossip hcase)
  refine ⟨rfl, _, Transition.run_cons_eq_some.2 ⟨_, rfl, Transition.run_cons_eq_some.2
    ⟨_, hverify installedAuthenticator (Nat.le_refl 0) rfl (by decide),
      Transition.run_cons_eq_some.2 ⟨_, hverify _ (by decide) rfl (by decide +kernel), rfl⟩⟩⟩, ?_⟩
  intro hnone
  have hfew := hnone [] ⟨rotatedMessage, 0⟩ [] ⟨rotatedMessage, 15000⟩ [] rfl
    (Acceptance.same_iff.2 ⟨rfl, rfl⟩) (show 15000 - 0 ≤ 20000 by decide)
  exact absurd hfew (show ¬ 10000 ≤ 0 by decide)

end Libeam.Auth
