import Libeam.Proofs.NameReservations
/-!
# A reservation is spent once

Once a call has returned `true` its reservation is gone from the table for good,
so no later call passes the check.  Between the check and the deletion of a call
to a distributed registry the reservation is still there, and another call that
starts in this gap passes as well.  A local call has no such gap.
-/

namespace Libeam.Proofs.SpentOnce

open Lib.Transition Libeam.System Registry Registry.RegistryCalls NameReservations

variable {T N : Type}

/-! ## Calls that pass their check -/

/-- The reservation of a call that returned `true`. -/
def spent (c : ConfirmCall N) : Option ReservationId :=
  match c.status with
  | .confirmed _ => some c.reservationId
  | _ => none

/-- The reservation of a call that passed its check. -/
def passed (c : ConfirmCall N) : Option ReservationId :=
  match c.status with
  | .refused => none
  | _ => some c.reservationId

/-- No reservation is spent by two calls. -/
def AtMostOnce (s : RegistryCalls T N) : Prop := (s.confirms.filterMap spent).Nodup

/-- No call awaits its registration. -/
def Settled (s : RegistryCalls T N) : Prop :=
  ∀ c ∈ s.confirms, ∀ r, c.status ≠ .registering r

/-- A call that would pass its check starts only when no call for the same
reservation awaits its registration. -/
def Alone (s : RegistryCalls T N) : RegistryAction N → Prop
  | .confirmReservation id _ =>
      (s.reservations.claim id s.now).2 ≠ none →
        ∀ c ∈ s.confirms, c.reservationId = id → ∀ r, c.status ≠ .registering r
  | _ => True

theorem passed_eq_some {c : ConfirmCall N} {id : ReservationId} :
    passed c = some id ↔ c.reservationId = id ∧ c.status ≠ .refused := by
  unfold passed
  cases c.status <;> simp

theorem atMostOnce_iff_of_settled {s : RegistryCalls T N} (h : Settled s) :
    AtMostOnce s ↔ (s.confirms.filterMap passed).Nodup := by
  have heq : s.confirms.filterMap spent = s.confirms.filterMap passed := by
    apply List.filterMap_congr
    intro c hc
    have hnot := h c hc
    unfold spent passed
    cases hs : c.status with
    | refused => rfl
    | registering r => exact absurd hs (hnot r)
    | confirmed r => rfl
  rw [AtMostOnce, heq]

variable [DecidableEq N] {s t : RegistryCalls T N} {names : NameTable T N}

/-! ## One step -/

/-- What a step does to the calls of `confirmReservation`. -/
theorem confirms_cases {a : RegistryAction N} (hst : s.step names a = some t) :
    t.confirms = s.confirms ∨
      (∃ id actorId, a = .confirmReservation id actorId ∧
        (s.reservations.claim id s.now).2 = none ∧
        t.confirms = s.confirms ++ [⟨id, actorId, .refused⟩] ∧ t.table = s.table) ∨
      (∃ id actorId r, a = .confirmReservation id actorId ∧
        s.reservations.find id = some r ∧ s.now ≤ r.expiresAt ∧
        t = { s with
          table := names.register s.table r.name r.nodeId actorId s.now
          confirms := s.confirms ++ [⟨id, actorId, .registering r⟩] }) ∨
      ∃ index id actorId r, a = .confirmResumes index ∧
        s.confirms[index]? = some ⟨id, actorId, .registering r⟩ ∧
        t = { s with
          reservations := s.reservations.delete id
          confirms := s.confirms.set index ⟨id, actorId, .confirmed r⟩ } := by
  cases a with
  | confirmReservation id actorId =>
      obtain rfl := Option.some.inj hst
      obtain ⟨rs, hnone, -, heq⟩ | ⟨r, hfind, htime, heq⟩ :=
        beginConfirm_cases s names id actorId
      · exact Or.inr (Or.inl ⟨id, actorId, rfl, hnone, by rw [heq], by rw [heq]⟩)
      · exact Or.inr (Or.inr (Or.inl ⟨id, actorId, r, rfl, hfind, htime, heq⟩))
  | confirmResumes index =>
      obtain ⟨id, actorId, r, hcall, heq⟩ := Sound.resumeConfirm_cases hst
      exact Or.inr (Or.inr (Or.inr ⟨index, id, actorId, r, rfl, hcall, heq⟩))
  | reserveResumes index =>
      obtain ⟨call, -, rfl⟩ := Option.map_eq_some_iff.1 hst
      exact Or.inl rfl
  | _ =>
      obtain rfl := Option.some.inj hst
      exact Or.inl rfl

omit [DecidableEq N] in
/-- Resuming a call leaves open what it passed for. -/
theorem filterMap_passed_set {calls : List (ConfirmCall N)} {index : Nat}
    {id : ReservationId} {actorId : ActorId} {r : NameReservation N}
    (h : calls[index]? = some ⟨id, actorId, .registering r⟩) :
    (calls.set index ⟨id, actorId, .confirmed r⟩).filterMap passed =
      calls.filterMap passed := by
  have hmap : (calls.set index ⟨id, actorId, .confirmed r⟩).map passed =
      calls.map passed := by
    rw [List.map_set]
    apply List.ext_getElem?
    intro i
    rw [List.getElem?_set]
    split_ifs with hi hlt
    · subst hi
      rw [List.getElem?_map, h]
      rfl
    · subst hi
      rw [List.getElem?_eq_none (by simpa using hlt)]
    · rfl
  have hjoin : ∀ l : List (ConfirmCall N),
      l.filterMap passed = (l.map passed).filterMap fun claimed => claimed := by
    intro l
    rw [List.filterMap_map]
    rfl
  rw [hjoin, hjoin, hmap]

/-- A call that has passed stays so: the list of passes only grows, and it grows
by the call that passes now. -/
theorem passed_step {a : RegistryAction N} (hst : s.step names a = some t) :
    (t.confirms.filterMap passed = s.confirms.filterMap passed) ∨
      ∃ id actorId r, a = .confirmReservation id actorId ∧
        s.reservations.find id = some r ∧ s.now ≤ r.expiresAt ∧
        t.confirms.filterMap passed = s.confirms.filterMap passed ++ [id] := by
  obtain heq | ⟨id, actorId, rfl, -, heq, -⟩ | ⟨id, actorId, r, rfl, hfind, htime, rfl⟩ |
    ⟨index, id, actorId, r, rfl, hcall, rfl⟩ := confirms_cases hst
  · exact Or.inl (by rw [heq])
  · exact Or.inl (by rw [heq, List.filterMap_append]; exact List.append_nil _)
  · exact Or.inr ⟨id, actorId, r, rfl, hfind, htime, List.filterMap_append⟩
  · exact Or.inl (filterMap_passed_set hcall)

/-- No step brings back a reservation that is gone. -/
theorem find_of_step {a : RegistryAction N} (hst : s.step names a = some t)
    {id : ReservationId} {r : NameReservation N}
    (hfind : t.reservations.find id = some r) :
    s.reservations.find id = some r ∨ id = s.reservations.nextId := by
  have hdelete : ∀ id', (s.reservations.delete id').find id = some r →
      s.reservations.find id = some r := by
    intro id' h
    rw [find_delete] at h
    split_ifs at h
    exact h
  cases a with
  | reserveName name nodeId ttlMs =>
      obtain rfl := Option.some.inj hst
      exact Or.inl (find_of_find_cleanupExpired hfind)
  | reserveResumes index =>
      obtain ⟨call, -, rfl⟩ := Option.map_eq_some_iff.1 hst
      dsimp only at hfind
      obtain hgrant | ⟨-, r', -, hgrant⟩ := grant_cases s.reservations call.existing
        call.name call.nodeId ((s.now : Int) + call.ttlMs).toNat
      · rw [hgrant] at hfind
        exact Or.inl hfind
      · rw [hgrant] at hfind
        by_cases hid : id = s.reservations.nextId
        · exact Or.inr hid
        · left
          unfold Reservations.find at hfind ⊢
          rwa [AList.lookup_insert_ne hid] at hfind
  | confirmReservation id' actorId =>
      obtain rfl := Option.some.inj hst
      obtain ⟨rs, -, rfl | rfl, heq⟩ | ⟨r', -, -, heq⟩ :=
        beginConfirm_cases s names id' actorId
      · rw [heq] at hfind
        exact Or.inl hfind
      · rw [heq] at hfind
        exact Or.inl (hdelete id' hfind)
      · rw [heq] at hfind
        exact Or.inl hfind
  | confirmResumes index =>
      obtain ⟨id', actorId, r', -, rfl⟩ := Sound.resumeConfirm_cases hst
      exact Or.inl (hdelete id' hfind)
  | releaseReservation id' =>
      obtain rfl := Option.some.inj hst
      exact Or.inl (hdelete id' hfind)
  | _ =>
      obtain rfl := Option.some.inj hst
      exact Or.inl hfind

theorem nextId_le_of_step {a : RegistryAction N} (hst : s.step names a = some t) :
    s.reservations.nextId ≤ t.reservations.nextId := by
  cases a with
  | reserveResumes index =>
      obtain ⟨call, -, rfl⟩ := Option.map_eq_some_iff.1 hst
      dsimp only
      obtain hgrant | ⟨-, r', -, hgrant⟩ := grant_cases s.reservations call.existing
        call.name call.nodeId ((s.now : Int) + call.ttlMs).toNat
      · rw [hgrant]
      · rw [hgrant]
        exact Nat.le_succ _
  | confirmReservation id actorId =>
      obtain rfl := Option.some.inj hst
      obtain ⟨rs, -, rfl | rfl, heq⟩ | ⟨r', -, -, heq⟩ :=
        beginConfirm_cases s names id actorId
      · rw [heq]
      · rw [heq]
        exact Nat.le_refl _
      · rw [heq]
  | confirmResumes index =>
      obtain ⟨id, actorId, r', -, rfl⟩ := Sound.resumeConfirm_cases hst
      exact Nat.le_refl _
  | _ =>
      obtain rfl := Option.some.inj hst
      exact Nat.le_refl _

/-! ## The invariant of runs without overlap -/

/-- Every call that passed had a reservation that was issued, and one that
returned `true` has used it up. -/
structure Spent (s : RegistryCalls T N) : Prop where
  sound : Sound s
  once : (s.confirms.filterMap passed).Nodup
  issued : ∀ c ∈ s.confirms, c.status ≠ .refused →
    c.reservationId < s.reservations.nextId
  gone : ∀ c ∈ s.confirms, ∀ r, c.status = .confirmed r →
    s.reservations.find c.reservationId = none

section
omit [DecidableEq N]

theorem spent_start (table : T) : Spent (start table : RegistryCalls T N) where
  sound := Sound.start table
  once := List.nodup_nil
  issued _ hc := absurd hc List.not_mem_nil
  gone _ hc := absurd hc List.not_mem_nil

/-- A reservation that is still there and whose calls do not overlap has not been
passed. -/
theorem not_passed {id : ReservationId} {r : NameReservation N}
    (hfind : s.reservations.find id = some r)
    (hgone : ∀ c ∈ s.confirms, c.reservationId = id →
      ∀ r, c.status = .confirmed r → s.reservations.find id = none)
    (halone : ∀ c ∈ s.confirms, c.reservationId = id → ∀ r, c.status ≠ .registering r) :
    id ∉ s.confirms.filterMap passed := by
  intro hin
  obtain ⟨c, hc, hpassed⟩ := List.mem_filterMap.1 hin
  obtain ⟨hid, hstatus⟩ := passed_eq_some.1 hpassed
  cases hs : c.status with
  | refused => exact hstatus hs
  | registering r' => exact halone c hc hid r' hs
  | confirmed r' =>
      rw [hgone c hc hid r' hs] at hfind
      cases hfind

theorem claim_ne_none {id : ReservationId} {r : NameReservation N}
    (hfind : s.reservations.find id = some r) (htime : s.now ≤ r.expiresAt) :
    (s.reservations.claim id s.now).2 ≠ none := by
  unfold Reservations.claim
  rw [hfind]
  dsimp only
  rw [if_neg (Nat.not_lt_of_le htime)]
  exact Option.some_ne_none r

end

theorem Spent.step (h : Spent s) {a : RegistryAction N} (halone : Alone s a)
    (hst : s.step names a = some t) : Spent t := by
  have hstill : ∀ c ∈ s.confirms, ∀ r, c.status = .confirmed r →
      t.reservations.find c.reservationId = none := by
    intro c hc r hs
    by_contra hne
    obtain ⟨r', hr'⟩ := Option.ne_none_iff_exists'.1 hne
    obtain hfind | hid := find_of_step hst hr'
    · rw [h.gone c hc r hs] at hfind
      cases hfind
    · exact absurd hid (Nat.ne_of_lt (h.issued c hc (by rw [hs]; simp)))
  have hle := nextId_le_of_step hst
  have hsound := h.sound.step hst
  obtain heq | ⟨id, actorId, rfl, -, heq, -⟩ | ⟨id, actorId, r, rfl, hfind, htime, rfl⟩ |
    ⟨index, id, actorId, r, rfl, hcall, rfl⟩ := confirms_cases hst
  · refine ⟨hsound, by rw [heq]; exact h.once, fun c hc hs => ?_, fun c hc => ?_⟩
    · rw [heq] at hc
      exact (h.issued c hc hs).trans_le hle
    · rw [heq] at hc
      exact hstill c hc
  · refine ⟨hsound, ?_, fun c hc hs => ?_, fun c hc r hs => ?_⟩
    · rw [heq, List.filterMap_append]
      exact (List.append_nil _).symm ▸ h.once
    · rw [heq] at hc
      obtain hc | hc := List.mem_append.1 hc
      · exact (h.issued c hc hs).trans_le hle
      · rw [List.mem_singleton.1 hc] at hs
        exact absurd rfl hs
    · rw [heq] at hc
      obtain hc | hc := List.mem_append.1 hc
      · exact hstill c hc r hs
      · rw [List.mem_singleton.1 hc] at hs
        cases hs
  · have hnew := not_passed hfind (fun c hc hid r hs => hid ▸ h.gone c hc r hs)
      (halone (claim_ne_none hfind htime))
    obtain ⟨hid, hgranted, -⟩ := h.sound.held id r hfind
    refine ⟨hsound, ?_, fun c hc hs => ?_, fun c hc r' hs => ?_⟩
    · rw [List.filterMap_append]
      refine List.Nodup.append h.once (List.nodup_singleton id) ?_
      rw [List.disjoint_right]
      intro id' hid'
      rwa [List.mem_singleton.1 hid']
    · obtain hc | hc := List.mem_append.1 hc
      · exact h.issued c hc hs
      · rw [List.mem_singleton.1 hc]
        exact hid ▸ h.sound.issued r hgranted
    · obtain hc | hc := List.mem_append.1 hc
      · exact hstill c hc r' hs
      · rw [List.mem_singleton.1 hc] at hs
        cases hs
  · have hmem := List.mem_of_getElem? hcall
    refine ⟨hsound, ?_, fun c hc hs => ?_, fun c hc r' hs => ?_⟩
    · rw [filterMap_passed_set hcall]
      exact h.once
    · obtain hc | rfl := List.mem_or_eq_of_mem_set hc
      · exact h.issued c hc hs
      · exact h.issued ⟨id, actorId, .registering r⟩ hmem (by simp)
    · obtain hc | rfl := List.mem_or_eq_of_mem_set hc
      · exact hstill c hc r' hs
      · rw [find_delete, if_pos rfl]

/-- Two calls that overlap both pass, and neither pass is ever taken back. -/
theorem passed_twice {a : RegistryAction N} (halone : ¬ Alone s a)
    (hst : s.step names a = some t) : ¬ (t.confirms.filterMap passed).Nodup := by
  cases a with
  | confirmReservation id actorId =>
      simp only [Alone, not_forall] at halone
      obtain ⟨hclaim, c, hc, hid, r, hs⟩ := halone
      have hs : c.status = .registering r := not_not.1 hs
      have hin : id ∈ s.confirms.filterMap passed :=
        List.mem_filterMap.2 ⟨c, hc, passed_eq_some.2 ⟨hid, by rw [hs]; simp⟩⟩
      obtain heq | ⟨id', actorId', ha, hnone, -⟩ |
        ⟨id', actorId', r', ha, -, -, rfl⟩ | ⟨index, id', actorId', r', ha, -⟩ :=
        confirms_cases hst
      · obtain rfl := Option.some.inj hst
        obtain ⟨rs, hnone, -⟩ | ⟨r', -, -, heq'⟩ :=
          beginConfirm_cases s names id actorId
        · exact absurd hnone hclaim
        · rw [heq'] at heq
          simp at heq
      · injection ha with h₁
        subst h₁
        exact absurd hnone hclaim
      · injection ha with h₁
        subst h₁
        rw [List.filterMap_append]
        intro hnodup
        exact (List.disjoint_right.1 (List.disjoint_of_nodup_append hnodup))
          (List.mem_singleton_self id) hin
      · cases ha
  | _ => exact absurd trivial halone

theorem not_nodup_step {a : RegistryAction N}
    (h : ¬ (s.confirms.filterMap passed).Nodup) (hst : s.step names a = some t) :
    ¬ (t.confirms.filterMap passed).Nodup := by
  obtain heq | ⟨id, actorId, r, -, -, -, heq⟩ := passed_step hst
  · rwa [heq]
  · rw [heq]
    exact fun hnodup => h (List.Nodup.of_append_left hnodup)

/-- When no call is pending, no reservation was spent twice if and only if no two
calls for one reservation overlapped. -/
theorem atMostOnce_iff {table : T} {as : List (RegistryAction N)}
    (hrun : run (RegistryCalls.step names) (RegistryCalls.start table) as = some s)
    (hsettled : Settled s) :
    AtMostOnce s ↔ Along (RegistryCalls.step names) Alone (RegistryCalls.start table) as := by
  rw [atMostOnce_iff_of_settled hsettled]
  have hends := along_or_broken (I := Spent) (G := Alone) (A := fun _ _ => True)
    (B := fun s => ¬ (s.confirms.filterMap passed).Nodup)
    (fun _ _ _ h _ halone hst => h.step halone hst)
    (fun _ _ _ _ _ halone hst => passed_twice halone hst)
    (fun _ _ _ h _ hst => not_nodup_step h hst) (spent_start table)
    (along_of_forall_mem (P := fun _ => True) (fun _ _ => trivial) _) hrun
  obtain ⟨halong, hgood⟩ | ⟨hbroken, hbad⟩ := hends
  · exact ⟨fun _ => halong, fun _ => hgood.once⟩
  · exact ⟨fun h => absurd h hbad, fun h => absurd h hbroken⟩

/-! ## What the name is bound to -/

/-- The steps of calls that confirm one reservation. -/
def OfConfirm (id : ReservationId) : RegistryAction N → Prop
  | .confirmReservation id' _ => id' = id
  | .confirmResumes _ => True
  | .pass _ => True
  | _ => False

/-- The name is bound to the actor of each call that passed. -/
def Bound (names : NameTable T N) (id : ReservationId) (s : RegistryCalls T N) : Prop :=
  ∀ c ∈ s.confirms, c.reservationId = id →
    ∀ r, c.status = .registering r ∨ c.status = .confirmed r →
      names.lookup s.table r.name = some ⟨r.nodeId, c.actorId⟩

/-- What the confirming steps keep, up to the one call that passes and after
it. -/
structure Binding (names : NameTable T N) (id : ReservationId)
    (s : RegistryCalls T N) : Prop where
  bound : Bound names id s
  gone : ∀ c ∈ s.confirms, c.reservationId = id →
    ∀ r, c.status = .confirmed r → s.reservations.find id = none

theorem Binding.step {id : ReservationId} (h : Binding names id s)
    {a : RegistryAction N} (ha : OfConfirm id a) (halone : Alone s a)
    (hst : s.step names a = some t) : Binding names id t := by
  cases a with
  | confirmReservation id' actorId =>
      obtain rfl : id' = id := ha
      obtain rfl := Option.some.inj hst
      obtain ⟨rs, -, hrs, heq⟩ | ⟨r, hfind, htime, heq⟩ :=
        beginConfirm_cases s names id' actorId
      · rw [heq]
        constructor
        · intro c hc hid r hs
          obtain hc | hc := List.mem_append.1 hc
          · exact h.bound c hc hid r hs
          · rw [List.mem_singleton.1 hc] at hs
            simp at hs
        · intro c hc hid r hs
          obtain hc | hc := List.mem_append.1 hc
          · have hnone := h.gone c hc hid r hs
            obtain rfl | rfl := hrs
            · exact hnone
            · rw [find_delete, if_pos rfl]
          · rw [List.mem_singleton.1 hc] at hs
            cases hs
      · have hnew := not_passed hfind h.gone (halone (claim_ne_none hfind htime))
        have hold : ∀ c ∈ s.confirms, c.reservationId = id' → c.status = .refused := by
          intro c hc hid
          by_contra hs
          exact hnew (List.mem_filterMap.2 ⟨c, hc, passed_eq_some.2 ⟨hid, hs⟩⟩)
        rw [heq]
        constructor
        · intro c hc hid r' hs
          obtain hc | hc := List.mem_append.1 hc
          · rw [hold c hc hid] at hs
            simp at hs
          · rw [List.mem_singleton.1 hc] at hs ⊢
            obtain hs | hs := hs
            · injection hs with hs
              subst hs
              rw [names.lookup_register, if_pos rfl]
            · cases hs
        · intro c hc hid r' hs
          obtain hc | hc := List.mem_append.1 hc
          · rw [hold c hc hid] at hs
            cases hs
          · rw [List.mem_singleton.1 hc] at hs
            cases hs
  | confirmResumes index =>
      obtain ⟨id', actorId, r, hcall, rfl⟩ := Sound.resumeConfirm_cases hst
      have hmem := List.mem_of_getElem? hcall
      constructor
      · intro c hc hid r' hs
        obtain hc | rfl := List.mem_or_eq_of_mem_set hc
        · exact h.bound c hc hid r' hs
        · obtain hs | hs := hs
          · cases hs
          · injection hs with hs
            subst hs
            exact h.bound _ hmem hid r (Or.inl rfl)
      · intro c hc hid r' hs
        obtain hc | rfl := List.mem_or_eq_of_mem_set hc
        · rw [find_delete, h.gone c hc hid r' hs, ite_self]
        · rw [find_delete, if_pos hid.symm]
  | pass ms =>
      obtain rfl := Option.some.inj hst
      exact ⟨h.bound, h.gone⟩
  | _ => exact ha.elim

theorem bound_of_run {id : ReservationId} {as : List (RegistryAction N)}
    (hnew : id ∉ s.confirms.filterMap passed) (ha : ∀ a ∈ as, OfConfirm id a)
    (halone : Along (RegistryCalls.step names) Alone s as)
    (hrun : run (RegistryCalls.step names) s as = some t) : Bound names id t := by
  have hrefused : ∀ c ∈ s.confirms, c.reservationId = id → c.status = .refused := by
    intro c hc hid
    by_contra hs
    exact hnew (List.mem_filterMap.2 ⟨c, hc, passed_eq_some.2 ⟨hid, hs⟩⟩)
  have hstart : Binding names id s := by
    constructor
    · intro c hc hid r hs
      rw [hrefused c hc hid] at hs
      simp at hs
    · intro c hc hid r hs
      rw [hrefused c hc hid] at hs
      cases hs
  have hend := run_invariant (I := Binding names id)
    (fun _ _ _ h hg hst => h.step hg.1 hg.2 hst) hstart
    ((along_of_forall_mem ha s).and halone) hrun
  exact hend.bound

/-! ## Local calls do not overlap -/

omit [DecidableEq N] in
theorem Settled.alone (h : Settled s) (a : RegistryAction N) : Alone s a := by
  cases a with
  | confirmReservation id actorId => exact fun _ c hc _ => h c hc
  | _ => trivial

theorem Settled.localStep (h : Settled s) {a : RegistryAction N}
    (hst : s.localStep names a = some t) : Settled t := by
  cases a with
  | confirmReservation id actorId =>
      simp only [RegistryCalls.localStep, Option.some.injEq] at hst
      subst hst
      obtain ⟨rs, -, -, heq⟩ | ⟨r, -, -, heq⟩ := beginConfirm_cases s names id actorId
      · intro c hc
        rw [heq] at hc
        have hc : c ∈ s.confirms ∨ c = ⟨id, actorId, .refused⟩ := by
          simpa [RegistryCalls.resumeConfirm] using hc
        obtain hc | rfl := hc
        · exact h c hc
        · simp
      · intro c hc
        rw [heq] at hc
        have hc : c ∈ s.confirms ∨ c = ⟨id, actorId, .confirmed r⟩ := by
          simpa [RegistryCalls.resumeConfirm] using hc
        obtain hc | rfl := hc
        · exact h c hc
        · simp
  | reserveName name nodeId ttlMs =>
      obtain ⟨call, -, rfl⟩ := Option.map_eq_some_iff.1 hst
      exact h
  | reserveResumes | confirmResumes | receive => cases hst
  | _ =>
      obtain rfl := Option.some.inj hst
      exact h

/-- A local run is a run of the distributed steps without overlap. -/
theorem run_of_localRun (hsettled : Settled s) {as : List (RegistryAction N)}
    (hrun : run (RegistryCalls.localStep names) s as = some t) :
    Settled t ∧ ∃ bs, run (RegistryCalls.step names) s bs = some t ∧
      Along (RegistryCalls.step names) Alone s bs ∧
      ∀ id, (∀ a ∈ as, OfConfirm id a) → ∀ b ∈ bs, OfConfirm id b := by
  induction as generalizing s with
  | nil => exact ⟨by cases hrun; exact hsettled, [], hrun, trivial, fun _ h => h⟩
  | cons a as ih =>
      obtain ⟨u, hst, hut⟩ := run_cons_eq_some.1 hrun
      obtain ⟨hdone, bs, hbs, halong, hof⟩ := ih (hsettled.localStep hst) hut
      obtain ⟨cs, hcs, hshape⟩ := run_of_localStep hst
      have halone : Along (RegistryCalls.step names) Alone s cs := by
        obtain rfl | ⟨_, _, _, -, rfl⟩ | ⟨_, _, -, rfl⟩ := hshape
        · exact ⟨hsettled.alone a, fun _ _ => trivial⟩
        · exact ⟨hsettled.alone a, fun _ _ => ⟨trivial, fun _ _ => trivial⟩⟩
        · exact ⟨hsettled.alone a, fun _ _ => ⟨trivial, fun _ _ => trivial⟩⟩
      refine ⟨hdone, cs ++ bs, ?_, halone.append hcs halong, fun id has b hb => ?_⟩
      · rw [run_append, hcs, Option.bind_some, hbs]
      · obtain hb | hb := List.mem_append.1 hb
        · have hof' := has a List.mem_cons_self
          obtain rfl | ⟨_, _, _, rfl, rfl⟩ | ⟨_, _, rfl, rfl⟩ := hshape
          · rwa [List.mem_singleton.1 hb]
          · exact hof'.elim
          · obtain rfl | hb := List.mem_cons.1 hb
            · exact hof'
            · rw [List.mem_singleton.1 hb]
              trivial
        · exact hof id (fun a' ha' => has a' (List.mem_cons_of_mem a ha')) b hb

/-! ## The claim of both registries -/

/-- A local registry spends a reservation at most once and the name ends bound to
the actor of the call that did.  A distributed registry does so exactly in the
runs in which no two calls for one reservation overlap. -/
theorem spent_once_iff {N : Type} [LinearOrder N] :
    (∀ as (s : RegistryCalls _ N),
      run (RegistryCalls.localStep (localNames N)) (RegistryCalls.start ∅) as = some s →
      AtMostOnce s ∧ ∀ id calls (u : RegistryCalls _ N),
        id ∉ s.confirms.filterMap passed → (∀ a ∈ calls, OfConfirm id a) →
        run (RegistryCalls.localStep (localNames N)) s calls = some u →
        Bound (localNames N) id u) ∧
    ∀ nodeId as (s : RegistryCalls _ N),
      run (RegistryCalls.step (gossipNames N))
        (RegistryCalls.start (RegistrySync.new nodeId)) as = some s →
      (Settled s → (AtMostOnce s ↔ Along (RegistryCalls.step (gossipNames N)) Alone
        (RegistryCalls.start (RegistrySync.new nodeId)) as)) ∧
      ∀ id calls (u : RegistryCalls _ N),
        id ∉ s.confirms.filterMap passed → (∀ a ∈ calls, OfConfirm id a) →
        Along (RegistryCalls.step (gossipNames N)) Alone s calls →
        run (RegistryCalls.step (gossipNames N)) s calls = some u →
        Bound (gossipNames N) id u := by
  constructor
  · intro as s hrun
    have hstart : Settled (RegistryCalls.start ∅ :
        RegistryCalls (AList fun _ : String => ActorLocation N) N) :=
      fun c hc => absurd hc List.not_mem_nil
    obtain ⟨hsettled, bs, hbs, halong, -⟩ := run_of_localRun hstart hrun
    refine ⟨(atMostOnce_iff hbs hsettled).2 halong, fun id calls u hnew hof hcalls => ?_⟩
    obtain ⟨-, cs, hcs, halong', hof'⟩ := run_of_localRun hsettled hcalls
    exact bound_of_run hnew (hof' id hof) halong' hcs
  · intro nodeId as s hrun
    exact ⟨fun hsettled => atMostOnce_iff hrun hsettled,
      fun id calls u hnew hof halong hcalls => bound_of_run hnew hof halong hcalls⟩

/-- A second call that starts after the first has returned. -/
theorem spent_once_retried :
    ∃ s : RegistryCalls (RegistrySync Nat) Nat,
      run (RegistryCalls.step (gossipNames Nat))
        (RegistryCalls.start (RegistrySync.new 0))
        [.reserveName "a" 1 30000, .reserveResumes 0, .confirmReservation 0 7,
          .confirmResumes 0, .confirmReservation 0 8] = some s ∧ AtMostOnce s ∧
      Along (RegistryCalls.step (gossipNames Nat)) Alone
        (RegistryCalls.start (RegistrySync.new 0))
        [.reserveName "a" 1 30000, .reserveResumes 0, .confirmReservation 0 7,
          .confirmResumes 0, .confirmReservation 0 8] := by
  have hrun : ∃ (s : RegistryCalls (RegistrySync Nat) Nat) (r : NameReservation Nat),
      run (RegistryCalls.step (gossipNames Nat))
        (RegistryCalls.start (RegistrySync.new 0))
        [.reserveName "a" 1 30000, .reserveResumes 0, .confirmReservation 0 7,
          .confirmResumes 0, .confirmReservation 0 8] = some s ∧
      s.confirms = [⟨0, 7, .confirmed r⟩, ⟨0, 8, .refused⟩] := ⟨_, _, rfl, rfl⟩
  obtain ⟨s, r, hrun, hconfirms⟩ := hrun
  have honce : AtMostOnce s := by
    rw [AtMostOnce, hconfirms]
    exact List.nodup_singleton 0
  have hsettled : Settled s := by
    intro c hc
    rw [hconfirms] at hc
    simp only [List.mem_cons, List.not_mem_nil, or_false] at hc
    obtain rfl | rfl := hc <;> simp
  exact ⟨s, hrun, honce, ((spent_once_iff.2 0 _ s hrun).1 hsettled).1 honce⟩

/-- Two overlapping calls for one reservation of a distributed registry, as a
duplicated request makes them, both return `true`. -/
theorem both_confirmed :
    ∃ (s : RegistryCalls (RegistrySync Nat) Nat) (r : NameReservation Nat),
      run (RegistryCalls.step (gossipNames Nat))
        (RegistryCalls.start (RegistrySync.new 0))
        [.reserveName "a" 1 30000, .reserveResumes 0, .confirmReservation 0 7,
          .confirmReservation 0 8, .confirmResumes 0, .confirmResumes 1] = some s ∧
      s.confirms = [⟨0, 7, .confirmed r⟩, ⟨0, 8, .confirmed r⟩] ∧
      ¬ AtMostOnce s := by
  have hrun : ∃ (s : RegistryCalls (RegistrySync Nat) Nat) (r : NameReservation Nat),
      run (RegistryCalls.step (gossipNames Nat))
        (RegistryCalls.start (RegistrySync.new 0))
        [.reserveName "a" 1 30000, .reserveResumes 0, .confirmReservation 0 7,
          .confirmReservation 0 8, .confirmResumes 0, .confirmResumes 1] = some s ∧
      s.confirms = [⟨0, 7, .confirmed r⟩, ⟨0, 8, .confirmed r⟩] := ⟨_, _, rfl, rfl⟩
  obtain ⟨s, r, hrun, hconfirms⟩ := hrun
  refine ⟨s, r, hrun, hconfirms, ?_⟩
  rw [AtMostOnce, hconfirms]
  simp [spent]

end Libeam.Proofs.SpentOnce
