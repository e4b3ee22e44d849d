import Libeam.Registry.ReservationCalls
/-!
# Reservations exclude other nodes

A reservation is granted only when no other node has one for the name, and the
test and the entry are one step; so no two nodes ever hold one, whatever ran
while a call awaited its lookup.  The invariant also ties every entry of the
table to a grant that was not released.
-/

namespace Libeam.Proofs.NameReservations

open Lib.Transition Libeam.System Registry Registry.RegistryCalls

variable {T N : Type}

/-! ## The reservation table -/

theorem find_delete (rs : Reservations N) (id id' : ReservationId) :
    (rs.delete id).find id' = if id' = id then none else rs.find id' := by
  unfold Reservations.delete Reservations.find
  split_ifs with h
  · rw [h]
    exact AList.lookup_erase id rs.entries
  · exact AList.lookup_erase_ne h

/-- Cleaning up adds nothing. -/
theorem find_of_find_cleanupExpired {rs : Reservations N} {now : Nat}
    {id : ReservationId} {r : NameReservation N}
    (h : (rs.cleanupExpired now).find id = some r) : rs.find id = some r := by
  have hmem := AList.mem_lookup_iff.1 h
  exact AList.mem_lookup_iff.2 (List.mem_of_mem_filter hmem)

variable [DecidableEq N]

/-- What the part of `reserveName` after the lookup can do. -/
theorem grant_cases (rs : Reservations N) (existing : Option (ActorLocation N))
    (name : String) (nodeId : N) (expiresAt : Nat) :
    rs.grant existing name nodeId expiresAt = (rs, none) ∨
      (∀ id r, rs.find id = some r → r.name = name → r.nodeId = nodeId) ∧
        ∃ r : NameReservation N, r = ⟨rs.nextId, name, nodeId, expiresAt⟩ ∧
          rs.grant existing name nodeId expiresAt =
            (⟨rs.entries.insert rs.nextId r, rs.nextId + 1⟩, some r) := by
  unfold Reservations.grant
  split_ifs with hexisting hheld
  · exact Or.inl rfl
  · exact Or.inl rfl
  · refine Or.inr ⟨fun id r hfind hname => ?_, _, rfl, rfl⟩
    by_contra hne
    apply hheld
    rw [List.any_eq_true]
    exact ⟨⟨id, r⟩, AList.mem_lookup_iff.1 hfind, by simp [hname, hne]⟩

omit [DecidableEq N] in
/-- What the check at the head of `confirmReservation` can do. -/
theorem claim_cases (rs : Reservations N) (id : ReservationId) (now : Nat) :
    (rs.claim id now = (rs, none) ∧ rs.find id = none) ∨
      (rs.claim id now = (rs.delete id, none) ∧
        ∃ r, rs.find id = some r ∧ r.expiresAt < now) ∨
      ∃ r, rs.claim id now = (rs, some r) ∧ rs.find id = some r ∧
        now ≤ r.expiresAt := by
  unfold Reservations.claim
  cases hfind : rs.find id with
  | none => exact Or.inl ⟨rfl, rfl⟩
  | some r =>
      dsimp only
      split_ifs with hexpired
      · exact Or.inr (Or.inl ⟨rfl, r, rfl, hexpired⟩)
      · exact Or.inr (Or.inr ⟨r, rfl, rfl, by omega⟩)

/-! ## The invariant -/

/-- Every entry is a grant that was not released, and no two nodes have one for
the same name. -/
structure Sound (s : RegistryCalls T N) : Prop where
  held : ∀ id r, s.reservations.find id = some r →
    r.reservationId = id ∧ r ∈ s.granted ∧ id ∉ s.released
  issued : ∀ r ∈ s.granted, r.reservationId < s.reservations.nextId
  released_lt : ∀ id ∈ s.released, id < s.reservations.nextId
  exclusive : ∀ id id' r r', s.reservations.find id = some r →
    s.reservations.find id' = some r' → r.name = r'.name → r.nodeId = r'.nodeId

namespace Sound

variable {s t : RegistryCalls T N}

section
omit [DecidableEq N]

theorem start (table : T) : Sound (start table : RegistryCalls T N) where
  held id r h := absurd h (by simp [RegistryCalls.start, Reservations.find,
    Reservations.empty])
  issued r h := absurd h List.not_mem_nil
  released_lt id h := absurd h List.not_mem_nil
  exclusive id id' r r' h := absurd h (by simp [RegistryCalls.start,
    Reservations.find, Reservations.empty])

/-- Removing entries, with no new grant, keeps the invariant. -/
theorem shrink (h : Sound s)
    (hfind : ∀ id r, t.reservations.find id = some r →
      s.reservations.find id = some r ∧ (id ∈ t.released → id ∈ s.released))
    (hnext : t.reservations.nextId = s.reservations.nextId)
    (hgranted : t.granted = s.granted)
    (hreleased : ∀ id ∈ t.released, id < s.reservations.nextId) : Sound t where
  held id r hr := by
    obtain ⟨hold, hrel⟩ := hfind id r hr
    obtain ⟨hid, hgrant, hnot⟩ := h.held id r hold
    exact ⟨hid, by rwa [hgranted], fun hin => hnot (hrel hin)⟩
  issued := by
    rw [hgranted, hnext]
    exact h.issued
  released_lt := by rwa [hnext]
  exclusive id id' r r' hr hr' :=
    h.exclusive id id' r r' (hfind id r hr).1 (hfind id' r' hr').1

/-- Calls that leave the reservations and the histories alone. -/
theorem frame (h : Sound s) (hreservations : t.reservations = s.reservations)
    (hgranted : t.granted = s.granted) (hreleased : t.released = s.released) :
    Sound t := by
  apply h.shrink
  · intro id r hr
    rw [hreservations] at hr
    exact ⟨hr, fun hin => hreleased ▸ hin⟩
  · rw [hreservations]
  · exact hgranted
  · rw [hreleased]
    exact h.released_lt

theorem delete (h : Sound s) (id : ReservationId)
    (hreservations : t.reservations = s.reservations.delete id)
    (hgranted : t.granted = s.granted) (hreleased : t.released = s.released) :
    Sound t := by
  apply h.shrink
  · intro id' r hr
    rw [hreservations, find_delete] at hr
    split_ifs at hr
    exact ⟨hr, fun hin => hreleased ▸ hin⟩
  · rw [hreservations]
    rfl
  · exact hgranted
  · rw [hreleased]
    exact h.released_lt

theorem beginReserve (h : Sound s) (names : NameTable T N) (name : String)
    (nodeId : N) (ttlMs : Int) : Sound (s.beginReserve names name nodeId ttlMs) :=
  h.shrink (fun _ _ hr => ⟨find_of_find_cleanupExpired hr, id⟩) rfl rfl
    h.released_lt

end

/-- The grant: the one step that adds an entry. -/
theorem resumeReserve (h : Sound s) {index : Nat}
    (hst : s.resumeReserve index = some t) : Sound t := by
  unfold RegistryCalls.resumeReserve at hst
  obtain ⟨call, -, rfl⟩ := Option.map_eq_some_iff.1 hst
  have hcases := grant_cases s.reservations call.existing call.name call.nodeId
    ((s.now : Int) + call.ttlMs).toNat
  obtain hrefused | ⟨hsame, r, hr, hgrant⟩ := hcases
  · dsimp only
    rw [hrefused]
    exact h.frame rfl (List.append_nil _) rfl
  · dsimp only
    rw [hgrant]
    have hinsert : ∀ id, (⟨s.reservations.entries.insert s.reservations.nextId r,
        s.reservations.nextId + 1⟩ : Reservations N).find id =
          if id = s.reservations.nextId then some r else s.reservations.find id := by
      intro id
      unfold Reservations.find
      split_ifs with hid
      · rw [hid]
        exact AList.lookup_insert s.reservations.entries
      · exact AList.lookup_insert_ne hid
    constructor
    · intro id r' hr'
      rw [hinsert] at hr'
      split_ifs at hr' with hid
      · obtain rfl := Option.some.inj hr'
        exact ⟨by rw [hr, hid], by simp,
          fun hin => absurd hid (Nat.ne_of_lt (h.released_lt id hin))⟩
      · obtain ⟨hkey, hgranted, hnot⟩ := h.held id r' hr'
        exact ⟨hkey, List.mem_append_left _ hgranted, hnot⟩
    · intro r' hr'
      obtain hold | hnew := List.mem_append.1 hr'
      · exact Nat.lt_succ_of_lt (h.issued r' hold)
      · obtain rfl := List.mem_singleton.1 hnew
        rw [hr]
        exact Nat.lt_succ_self _
    · exact fun id hid => Nat.lt_succ_of_lt (h.released_lt id hid)
    · intro id id' r₁ r₂ h₁ h₂ hname
      rw [hinsert] at h₁ h₂
      split_ifs at h₁ h₂
      · rw [← Option.some.inj h₁, ← Option.some.inj h₂]
      · obtain rfl := Option.some.inj h₁
        rw [hr] at hname ⊢
        exact (hsame id' r₂ h₂ hname.symm).symm
      · obtain rfl := Option.some.inj h₂
        rw [hr] at hname ⊢
        exact hsame id r₁ h₁ hname
      · exact h.exclusive id id' r₁ r₂ h₁ h₂ hname

section
omit [DecidableEq N]

theorem beginConfirm (h : Sound s) (names : NameTable T N) (id : ReservationId)
    (actorId : ActorId) : Sound (s.beginConfirm names id actorId) := by
  unfold RegistryCalls.beginConfirm
  obtain ⟨hclaim, -⟩ | ⟨hclaim, -⟩ | ⟨r, hclaim, -⟩ :=
    claim_cases s.reservations id s.now
  · rw [hclaim]
    exact h.frame rfl rfl rfl
  · rw [hclaim]
    exact h.delete id rfl rfl rfl
  · rw [hclaim]
    exact h.frame rfl rfl rfl

/-- The call that resumes awaited its registration. -/
theorem resumeConfirm_cases {index : Nat} (hst : s.resumeConfirm index = some t) :
    ∃ id actorId r, s.confirms[index]? = some ⟨id, actorId, .registering r⟩ ∧
      t = { s with
        reservations := s.reservations.delete id
        confirms := s.confirms.set index ⟨id, actorId, .confirmed r⟩ } := by
  unfold RegistryCalls.resumeConfirm at hst
  split at hst
  next id actorId r hcall => exact ⟨id, actorId, r, hcall, (Option.some.inj hst).symm⟩
  next => cases hst

theorem resumeConfirm (h : Sound s) {index : Nat}
    (hst : s.resumeConfirm index = some t) : Sound t := by
  obtain ⟨id, actorId, r, -, rfl⟩ := resumeConfirm_cases hst
  exact h.delete id rfl rfl rfl

theorem release (h : Sound s) (id : ReservationId) : Sound (s.release id) := by
  unfold RegistryCalls.release
  apply h.shrink
  · intro id' r hr
    rw [find_delete] at hr
    split_ifs at hr with hid
    refine ⟨hr, fun hin => ?_⟩
    dsimp only at hin
    split_ifs at hin
    · obtain hin | hin := List.mem_append.1 hin
      · exact hin
      · exact absurd (List.mem_singleton.1 hin) hid
    · exact hin
  · rfl
  · rfl
  · intro id' hin
    dsimp only at hin
    split_ifs at hin with hlt
    · obtain hin | hin := List.mem_append.1 hin
      · exact h.released_lt id' hin
      · rwa [List.mem_singleton.1 hin]
    · exact h.released_lt id' hin

end

theorem step (h : Sound s) {names : NameTable T N} {a : RegistryAction N}
    (hst : s.step names a = some t) : Sound t := by
  cases a with
  | reserveName name nodeId ttlMs =>
      obtain rfl := Option.some.inj hst
      exact h.beginReserve names name nodeId ttlMs
  | reserveResumes index => exact h.resumeReserve hst
  | confirmReservation id actorId =>
      obtain rfl := Option.some.inj hst
      exact h.beginConfirm names id actorId
  | confirmResumes index => exact h.resumeConfirm hst
  | releaseReservation id =>
      obtain rfl := Option.some.inj hst
      exact h.release id
  | register | unregister | receive | pass =>
      obtain rfl := Option.some.inj hst
      exact h.frame rfl rfl rfl

end Sound

/-! ## A call of a local registry -/

variable {s t : RegistryCalls T N} {names : NameTable T N}

omit [DecidableEq N] in
/-- What `confirmReservation` does up to its registration: it refuses, or it
checks the reservation and registers it. -/
theorem beginConfirm_cases (s : RegistryCalls T N) (names : NameTable T N)
    (id : ReservationId) (actorId : ActorId) :
    (∃ rs, (s.reservations.claim id s.now).2 = none ∧
      (rs = s.reservations ∨ rs = s.reservations.delete id) ∧
      s.beginConfirm names id actorId =
        { s with
          reservations := rs, confirms := s.confirms ++ [⟨id, actorId, .refused⟩] }) ∨
      ∃ r, s.reservations.find id = some r ∧ s.now ≤ r.expiresAt ∧
        s.beginConfirm names id actorId =
          { s with
            table := names.register s.table r.name r.nodeId actorId s.now
            confirms := s.confirms ++ [⟨id, actorId, .registering r⟩] } := by
  unfold beginConfirm
  obtain ⟨hclaim, -⟩ | ⟨hclaim, -⟩ | ⟨r, hclaim, hfind, htime⟩ :=
    claim_cases s.reservations id s.now
  · rw [hclaim]
    exact Or.inl ⟨_, rfl, Or.inl rfl, rfl⟩
  · rw [hclaim]
    exact Or.inl ⟨_, rfl, Or.inr rfl, rfl⟩
  · rw [hclaim]
    exact Or.inr ⟨r, hfind, htime, rfl⟩

/-- A local call is one or two steps of the distributed one. -/
theorem run_of_localStep {a : RegistryAction N} (hst : s.localStep names a = some t) :
    ∃ as, run (RegistryCalls.step names) s as = some t ∧
      (as = [a] ∨ (∃ name nodeId ttlMs, a = .reserveName name nodeId ttlMs ∧
        as = [a, .reserveResumes s.reserving.length]) ∨
      (∃ id actorId, a = .confirmReservation id actorId ∧
        as = [a, .confirmResumes s.confirms.length])) := by
  cases a with
  | reserveName name nodeId ttlMs =>
      refine ⟨[.reserveName name nodeId ttlMs, .reserveResumes s.reserving.length],
        ?_, Or.inr (Or.inl ⟨name, nodeId, ttlMs, rfl, rfl⟩)⟩
      change (RegistryCalls.resumeReserve _ _).bind some = some t
      rw [Option.bind_fun_some]
      exact hst
  | confirmReservation id actorId =>
      simp only [localStep, Option.some.injEq] at hst
      cases hres : (s.beginConfirm names id actorId).resumeConfirm s.confirms.length with
      | none =>
          rw [hres, Option.getD_none] at hst
          exact ⟨[.confirmReservation id actorId], congrArg some hst, Or.inl rfl⟩
      | some t' =>
          rw [hres, Option.getD_some] at hst
          refine ⟨[.confirmReservation id actorId, .confirmResumes s.confirms.length],
            ?_, Or.inr (Or.inr ⟨id, actorId, rfl, rfl⟩)⟩
          change (RegistryCalls.resumeConfirm _ _).bind some = some t
          rw [Option.bind_fun_some, hres, hst]
  | reserveResumes | confirmResumes | receive => cases hst
  | releaseReservation id =>
      exact ⟨[.releaseReservation id], hst, Or.inl rfl⟩
  | register name nodeId actorId =>
      exact ⟨[.register name nodeId actorId], hst, Or.inl rfl⟩
  | unregister name => exact ⟨[.unregister name], hst, Or.inl rfl⟩
  | pass ms => exact ⟨[.pass ms], hst, Or.inl rfl⟩

theorem sound_of_run {table : T} {as : List (RegistryAction N)}
    (hrun : run (RegistryCalls.step names) (RegistryCalls.start table) as = some s) :
    Sound s :=
  run_invariant' (fun _ _ _ h hst => h.step hst) (Sound.start table) hrun

theorem Sound.localStep (h : Sound s) {a : RegistryAction N}
    (hst : s.localStep names a = some t) : Sound t := by
  obtain ⟨as, hrun, -⟩ := run_of_localStep hst
  exact run_invariant' (fun _ _ _ h hst => h.step hst) h hrun

theorem sound_of_localRun {table : T} {as : List (RegistryAction N)}
    (hrun : run (RegistryCalls.localStep names) (RegistryCalls.start table) as = some s) :
    Sound s :=
  run_invariant' (fun _ _ _ h hst => h.localStep hst) (Sound.start table) hrun

/-! ## The claim of both registries -/

/-- No two nodes hold unexpired reservations of one name. -/
def Exclusive (s : RegistryCalls T N) : Prop :=
  ∀ id id' r r', s.reservations.find id = some r → s.reservations.find id' = some r' →
    s.now ≤ r.expiresAt → s.now ≤ r'.expiresAt → r.name = r'.name →
      r.nodeId = r'.nodeId

/-- The call confirmed `r` on good grounds in `s` and bound exactly its name. -/
structure Checked (names : NameTable T N) (s t : RegistryCalls T N)
    (id : ReservationId) (actorId : ActorId) (r : NameReservation N) : Prop where
  reservationId_eq : r.reservationId = id
  granted : r ∈ s.granted
  not_released : id ∉ s.released
  unexpired : s.now ≤ r.expiresAt
  bound : ∀ name, names.lookup t.table name =
    if name = r.name then some ⟨r.nodeId, actorId⟩ else names.lookup s.table name

omit [DecidableEq N] in
theorem Sound.checked (h : Sound s) {id : ReservationId} {r : NameReservation N}
    (hfind : s.reservations.find id = some r) (htime : s.now ≤ r.expiresAt)
    {actorId : ActorId}
    (htable : t.table = names.register s.table r.name r.nodeId actorId s.now) :
    Checked names s t id actorId r := by
  obtain ⟨hid, hgranted, hreleased⟩ := h.held id r hfind
  refine ⟨hid, hgranted, hreleased, htime, fun name => ?_⟩
  rw [htable, names.lookup_register]

/-- A call to a distributed registry either returns `false` at once or awaits the
registration of a checked reservation. -/
theorem Sound.confirm_step (h : Sound s) (id : ReservationId) (actorId : ActorId)
    (hst : s.step names (.confirmReservation id actorId) = some t) :
    ∃ status, t.confirms = s.confirms ++ [⟨id, actorId, status⟩] ∧
      (status = .refused ∨ ∃ r, status = .registering r ∧
        Checked names s t id actorId r) := by
  obtain rfl := Option.some.inj hst
  obtain ⟨rs, -, -, heq⟩ | ⟨r, hfind, htime, heq⟩ :=
    beginConfirm_cases s names id actorId
  · exact ⟨.refused, by rw [heq], Or.inl rfl⟩
  · refine ⟨.registering r, by rw [heq], Or.inr ⟨r, rfl, h.checked hfind htime ?_⟩⟩
    rw [heq]

theorem Sound.confirm_localStep (h : Sound s) (id : ReservationId) (actorId : ActorId)
    (hst : s.localStep names (.confirmReservation id actorId) = some t) :
    ∃ status, t.confirms = s.confirms ++ [⟨id, actorId, status⟩] ∧
      (status = .refused ∨ ∃ r, status = .confirmed r ∧
        Checked names s t id actorId r) := by
  simp only [RegistryCalls.localStep, Option.some.injEq] at hst
  subst hst
  obtain ⟨rs, -, -, heq⟩ | ⟨r, hfind, htime, heq⟩ :=
    beginConfirm_cases s names id actorId
  · refine ⟨.refused, ?_, Or.inl rfl⟩
    rw [heq]
    simp [RegistryCalls.resumeConfirm]
  · refine ⟨.confirmed r, ?_, Or.inr ⟨r, rfl, h.checked hfind htime ?_⟩⟩
    · rw [heq]
      simp [RegistryCalls.resumeConfirm]
    · rw [heq]
      simp [RegistryCalls.resumeConfirm]

/-- Only a call that awaited its registration comes to return `true`. -/
theorem confirmed_of_step {a : RegistryAction N} (hst : s.step names a = some t)
    {index : Nat} {id : ReservationId} {actorId : ActorId} {r : NameReservation N}
    (hcall : t.confirms[index]? = some ⟨id, actorId, .confirmed r⟩) :
    s.confirms[index]? = some ⟨id, actorId, .registering r⟩ ∨
      s.confirms[index]? = some ⟨id, actorId, .confirmed r⟩ := by
  cases a with
  | confirmReservation id' actorId' =>
      obtain rfl := Option.some.inj hst
      have hnew : ∀ status, status ≠ .confirmed r →
          (s.confirms ++ [⟨id', actorId', status⟩])[index]? =
            some ⟨id, actorId, .confirmed r⟩ →
          s.confirms[index]? = some ⟨id, actorId, .confirmed r⟩ := by
        intro status hne hget
        rw [List.getElem?_append] at hget
        split_ifs at hget with hlt
        · exact hget
        · rw [List.getElem?_singleton] at hget
          split_ifs at hget
          have := congrArg ConfirmCall.status (Option.some.inj hget)
          exact absurd this hne
      obtain ⟨rs, -, -, heq⟩ | ⟨r', -, -, heq⟩ :=
        beginConfirm_cases s names id' actorId'
      · rw [heq] at hcall
        exact Or.inr (hnew .refused (by simp) hcall)
      · rw [heq] at hcall
        exact Or.inr (hnew (.registering r') (by simp) hcall)
  | confirmResumes index' =>
      obtain ⟨id', actorId', r', hget, rfl⟩ := Sound.resumeConfirm_cases hst
      dsimp only at hcall
      by_cases hsame : index' = index
      · subst hsame
        have hlt := (List.getElem?_eq_some_iff.1 hget).1
        rw [List.getElem?_set_self hlt] at hcall
        injection hcall with hcall
        injection hcall with h₁ h₂ h₃
        injection h₃ with h₃
        subst h₁ h₂ h₃
        exact Or.inl hget
      · rw [List.getElem?_set_ne hsame] at hcall
        exact Or.inr hcall
  | reserveResumes index' =>
      obtain ⟨call, -, rfl⟩ := Option.map_eq_some_iff.1 hst
      exact Or.inr hcall
  | _ =>
      obtain rfl := Option.some.inj hst
      exact Or.inr hcall

/-- In every state that any interleaving reaches, no two nodes hold unexpired
reservations of one name, and a call comes to return `true` only from a
reservation granted, not released and not expired when it was checked, whose name
it binds to the reserving node and the given actor. -/
theorem reservations_exclude {N : Type} [LinearOrder N] :
    (∀ as (s : RegistryCalls _ N),
      run (localStep (localNames N)) (start ∅) as = some s →
      Exclusive s ∧ ∀ id actorId t,
        s.localStep (localNames N) (.confirmReservation id actorId) = some t →
        ∃ status, t.confirms = s.confirms ++ [⟨id, actorId, status⟩] ∧
          (status = .refused ∨ ∃ r, status = .confirmed r ∧
            Checked (localNames N) s t id actorId r)) ∧
    ∀ nodeId as (s : RegistryCalls _ N),
      run (step (gossipNames N)) (start (RegistrySync.new nodeId)) as = some s →
      Exclusive s ∧
      (∀ id actorId t, s.step (gossipNames N) (.confirmReservation id actorId) = some t →
        ∃ status, t.confirms = s.confirms ++ [⟨id, actorId, status⟩] ∧
          (status = .refused ∨ ∃ r, status = .registering r ∧
            Checked (gossipNames N) s t id actorId r)) ∧
      ∀ a t, s.step (gossipNames N) a = some t → ∀ (index : Nat) id actorId r,
        t.confirms[index]? = some ⟨id, actorId, .confirmed r⟩ →
        s.confirms[index]? = some ⟨id, actorId, .registering r⟩ ∨
          s.confirms[index]? = some ⟨id, actorId, .confirmed r⟩ := by
  constructor
  · intro as s hrun
    have hsound := sound_of_localRun hrun
    exact ⟨fun id id' r r' h h' _ _ => hsound.exclusive id id' r r' h h',
      fun id actorId t hst => hsound.confirm_localStep id actorId hst⟩
  · intro nodeId as s hrun
    have hsound := sound_of_run hrun
    exact ⟨fun id id' r r' h h' _ _ => hsound.exclusive id id' r r' h h',
      fun id actorId t hst => hsound.confirm_step id actorId hst,
      fun a t hst index id actorId r hcall => confirmed_of_step hst hcall⟩

/-- Two nodes that ask for one name, the second while the first awaits its
lookup. -/
theorem reservations_exclude_raced :
    ∃ s : RegistryCalls (RegistrySync Nat) Nat,
      run (step (gossipNames Nat)) (start (RegistrySync.new 0))
        [.reserveName "a" 1 30000, .reserveName "a" 2 30000, .reserveResumes 1,
          .reserveResumes 0] = some s ∧
      s.granted.map NameReservation.nodeId = [2] ∧ Exclusive s := by
  have hrun : ∃ s : RegistryCalls (RegistrySync Nat) Nat,
      run (step (gossipNames Nat)) (start (RegistrySync.new 0))
        [.reserveName "a" 1 30000, .reserveName "a" 2 30000, .reserveResumes 1,
          .reserveResumes 0] = some s ∧
      s.granted.map NameReservation.nodeId = [2] := ⟨_, rfl, rfl⟩
  obtain ⟨s, hs, hgranted⟩ := hrun
  exact ⟨s, hs, hgranted, (reservations_exclude.2 0 _ s hs).1⟩

end Libeam.Proofs.NameReservations
