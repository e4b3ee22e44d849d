import Libeam.Proofs.TreeSteps
/-!
# The log of crashes

The supervisors log what they decide about a crash.  A restart replaces the
instance, so a limit on restarts is a limit on a lineage; `restartsSinceReset` counts
the restarts of a lineage in a log, `restartsUnder` those granted under one key of
the supervisor.  What a step adds to the logs is said once, for all limits.
-/

namespace Libeam.Proofs.CrashLog

open Libeam.System (ActorId RestartRecord SupervisionStrategy)
open Supervision TreeTables

/-! ## Counting in a log -/

section
variable {κ : Type} [DecidableEq κ] (lineage : ActorId → ActorId) (σ : ActorId) (key : κ)

/-- The crash resets the period of the lineage `σ`: it is one of its own, or one that
is counted in the same record. -/
def resetsLineage (c : Counted κ) : Bool := c.reset && (lineage c.id = σ || c.key = key)

/-- The restarts of the lineage `σ` since the last reset of its period. -/
def restartsSinceReset : List (Counted κ) → Nat
  | [] => 0
  | c :: cs =>
      let before := if resetsLineage lineage σ key c then 0 else restartsSinceReset cs
      if c.restarted ∧ lineage c.id = σ then before + 1 else before

/-- The restarts granted under a key since the last reset of its record. -/
def restartsUnder : List (Counted κ) → Nat
  | [] => 0
  | c :: cs =>
      if c.key = key then
        let before := if c.reset then 0 else restartsUnder cs
        if c.restarted then before + 1 else before
      else restartsUnder cs

variable {lineage σ key}

/-- The record of an instance is used up when it is not stale and has the full count. -/
theorem exhausted_iff {record : Option RestartRecord} {limit : Nat} {resets : Bool}
    (hfull : resets = true → limit = 0) :
    limit ≤ (if resets then 0 else (record.map (·.count)).getD 0) ↔
      (0 < limit → ∃ r, record = some r ∧ limit ≤ r.count) := by
  by_cases hreset : resets = true
  · rw [if_pos hreset, hfull hreset]
    simp
  · rw [if_neg hreset]
    rcases Nat.eq_zero_or_pos limit with rfl | hpos
    · simp
    · cases record with
      | none => simp [hpos, Nat.pos_iff_ne_zero.1 hpos]
      | some r => simp [hpos]

omit [DecidableEq κ] in
/-- The instances of a log that has grown by one crash exist. -/
theorem logged_cons {n : ActorId} {new old : List (Counted κ)} {c : Counted κ}
    (hnew : new = c :: old) (hc : c.id < n) (hold : ∀ c ∈ old, c.id < n) :
    ∀ c ∈ new, c.id < n := by
  rw [hnew]
  exact List.forall_mem_cons.2 ⟨hc, hold⟩

theorem restartsSinceReset_congr {lineage' : ActorId → ActorId} {cs : List (Counted κ)}
    (h : ∀ c ∈ cs, lineage' c.id = lineage c.id) :
    restartsSinceReset lineage' σ key cs = restartsSinceReset lineage σ key cs := by
  induction cs with
  | nil => rfl
  | cons c cs ih =>
      rw [restartsSinceReset, restartsSinceReset, ih fun d hd => h d (List.mem_cons_of_mem _ hd)]
      unfold resetsLineage
      rw [h c List.mem_cons_self]

/-- A crash that does not restart the lineage adds nothing. -/
theorem restartsSinceReset_le_of_not {c : Counted κ} {cs : List (Counted κ)}
    (h : ¬ (c.restarted = true ∧ lineage c.id = σ)) :
    restartsSinceReset lineage σ key (c :: cs) ≤ restartsSinceReset lineage σ key cs := by
  rw [restartsSinceReset, if_neg h]
  split_ifs
  · exact Nat.zero_le _
  · exact Nat.le_refl _

/-- A lineage without crashes has had no restarts. -/
theorem restartsSinceReset_other {cs : List (Counted κ)} (h : ∀ c ∈ cs, lineage c.id ≠ σ) :
    restartsSinceReset lineage σ key cs = 0 := by
  induction cs with
  | nil => rfl
  | cons c cs ih =>
      have hrest := ih fun d hd => h d (List.mem_cons_of_mem _ hd)
      have hother : ¬ (c.restarted = true ∧ lineage c.id = σ) :=
        fun hboth => h c List.mem_cons_self hboth.2
      exact Nat.le_zero.1 (Nat.le_trans (restartsSinceReset_le_of_not hother) (Nat.le_of_eq hrest))

/-- When all crashes of the lineage are counted under its key, the record bounds it. -/
theorem restartsSinceReset_le_under {cs : List (Counted κ)}
    (h : ∀ c ∈ cs, lineage c.id = σ → c.key = key) :
    restartsSinceReset lineage σ key cs ≤ restartsUnder key cs := by
  induction cs with
  | nil => exact Nat.le_refl _
  | cons c cs ih =>
      have hrest := ih fun d hd => h d (List.mem_cons_of_mem _ hd)
      by_cases hkey : c.key = key
      · rw [restartsSinceReset, restartsUnder]
        have hresets : resetsLineage lineage σ key c = c.reset := by
          simp [resetsLineage, hkey]
        dsimp only
        rw [if_pos hkey, hresets]
        by_cases hown : c.restarted = true ∧ lineage c.id = σ
        · rw [if_pos hown, if_pos hown.1]
          split_ifs <;> omega
        · rw [if_neg hown]
          split_ifs <;> omega
      · have hother : lineage c.id ≠ σ := fun heq => hkey (h c List.mem_cons_self heq)
        rw [restartsUnder, if_neg hkey]
        exact Nat.le_trans (restartsSinceReset_le_of_not fun hboth => hother hboth.2) hrest

end

/-! ## What a step logs -/

variable {N V : Type}

/-- The parts of a tree that only crashes change. -/
def logs (t : Tree N V) :=
  (t.childSupervision, t.supervisor, t.childSupervisor, t.rootCrashes, t.childCrashes, t.killed,
    t.stopRequests)

section
variable {t : Tree N V}

theorem logs_restart (r : ActorRef N) : logs (t.restart r) = logs t := by
  unfold Tree.restart
  split <;> rfl

theorem logs_applyStrategy (r : ActorRef N) (p : ActorId) :
    logs (t.applyStrategy r p) = logs t := by
  unfold Tree.applyStrategy
  split
  · exact logs_restart r
  · rfl
  · split <;> rfl

theorem logs_applyRemoteStrategy [DecidableEq N] (e : RemoteChildEntry N V) :
    logs (t.applyRemoteStrategy e) = logs t := by
  unfold Tree.applyRemoteStrategy
  dsimp only
  split
  · rfl
  · rfl
  · split <;> rfl

variable [DecidableEq N] {stringify : List V → String}

theorem logs_of_not_crash {a : TreeAction N V} {t' : Tree N V} (h : t.step stringify a = some t')
    (hcrash : ∀ r now, a ≠ .crash r now) (hremote : ∀ x now, a ≠ .remoteCrash x now) :
    logs t' = logs t := by
  cases a with
  | spawn | acceptChild | spawnChild | stopRemoteChild | removeRemoteChild => cases h; rfl
  | spawnChildRemote p actorClass node options =>
      dsimp only [Tree.step] at h
      split_ifs at h <;> cases h <;> rfl
  | stop | childStop | migrate =>
      dsimp only [Tree.step] at h
      split_ifs at h
      cases h
      rfl
  | restart r =>
      cases h
      exact logs_restart r
  | restartRemoteChild x =>
      obtain ⟨e, -, rfl⟩ := Option.map_eq_some_iff.1 h
      rfl
  | crash r now => exact absurd rfl (hcrash r now)
  | remoteCrash x now => exact absurd rfl (hremote x now)
  | resumes index response =>
      dsimp only [Tree.step, Tree.resumes] at h
      split at h
      · cases h
        rfl
      · cases h
  | rejects index =>
      dsimp only [Tree.step, Tree.rejects] at h
      split at h
      · cases h
        rfl
      · cases h
        rfl
      · cases h

omit [DecidableEq N] in
/-- What the crash of a root actor changes. -/
theorem handleRootCrash_logs (r : ActorRef N) (now : Nat) :
    (t.handleRootCrash r now).childSupervision = t.childSupervision ∧
    (t.handleRootCrash r now).childSupervisor = t.childSupervisor ∧
    (t.handleRootCrash r now).childCrashes = t.childCrashes ∧
    (t.handleRootCrash r now).supervisor = (t.supervisor.handleCrash r.id now).1 ∧
    (t.handleRootCrash r now).rootCrashes =
      if r.id ∈ t.actors then
        ⟨r.id, r.id, rootResets t.supervisor r.id now,
          (t.supervisor.handleCrash r.id now).2 = SupervisionStrategy.Restart⟩ :: t.rootCrashes
      else t.rootCrashes := by
  unfold Tree.handleRootCrash
  dsimp only
  cases (t.supervisor.handleCrash r.id now).2 with
  | Restart =>
      have hlogs := logs_restart (t := { t with
        supervisor := (t.supervisor.handleCrash r.id now).1
        rootCrashes := if r.id ∈ t.actors then ⟨r.id, r.id, rootResets t.supervisor r.id now,
          decide (SupervisionStrategy.Restart = SupervisionStrategy.Restart)⟩ :: t.rootCrashes
          else t.rootCrashes }) r
      simp only [logs, Prod.mk.injEq] at hlogs
      obtain ⟨h1, h2, h3, h4, h5, -, -⟩ := hlogs
      exact ⟨h1, h3, h5, h2, h4⟩
  | Stop =>
      by_cases hfull : t.supervisor.maxRestarts ≤ (rootRecord t.supervisor r.id now).count
      · rw [if_pos hfull]
        exact ⟨rfl, rfl, rfl, rfl, rfl⟩
      · rw [if_neg hfull]
        exact ⟨rfl, rfl, rfl, rfl, rfl⟩

/-- The crash of a child `id` of `p` is counted under `key`. -/
structure CountsUnder (t t' : Tree N V) (id p : ActorId) (key : String) (now : Nat) : Prop where
  childSupervision : t'.childSupervision = t.childSupervision
  supervisor : t'.supervisor = t.supervisor
  rootCrashes : t'.rootCrashes = t.rootCrashes
  childSupervisor : t'.childSupervisor =
    (t.childSupervisor.canRestart key (t.childSupervision p) now).1
  childCrashes : t'.childCrashes =
    ⟨id, key, t.childSupervisor.resets key (t.childSupervision p).periodMs now,
      (t.childSupervisor.canRestart key (t.childSupervision p) now).2⟩ :: t.childCrashes

omit [DecidableEq N] in
/-- What is logged carries over to a tree with the same logs. -/
theorem CountsUnder.of_logs {t u u' : Tree N V} {id p : ActorId} {key : String} {now : Nat}
    (h : CountsUnder t u id p key now) (hlogs : logs u' = logs u) :
    CountsUnder t u' id p key now := by
  simp only [logs, Prod.mk.injEq] at hlogs
  obtain ⟨h1, h2, h3, h4, h5, -, -⟩ := hlogs
  exact ⟨h1.trans h.childSupervision, h2.trans h.supervisor, h4.trans h.rootCrashes,
    h3.trans h.childSupervisor, h5.trans h.childCrashes⟩

omit [DecidableEq N] in
theorem handleChildCrash_logs (stringify : List V → String) (r : ActorRef N)
    {m : ActorMetadata N V} {p : ActorRef N} (now : Nat) (hp : p.id ∈ t.actors) :
    CountsUnder t (t.handleChildCrash stringify r m p now) r.id p.id
      (getRestartKey stringify r.id p.id (some m.options)) now := by
  unfold Tree.handleChildCrash
  rw [if_pos hp]
  dsimp only
  split_ifs
  · refine CountsUnder.of_logs ?_ (logs_applyStrategy _ _)
    exact ⟨rfl, rfl, rfl, rfl, rfl⟩
  · exact ⟨rfl, rfl, rfl, rfl, rfl⟩

theorem handleRemoteChildCrash_logs (t : Tree N V) (stringify : List V → String) (x : ActorId)
    (now : Nat) :
    logs (t.handleRemoteChildCrash stringify x now) = logs t ∨
    ∃ e ∈ t.remoteChildren, e.childRef.id = x ∧
      CountsUnder t (t.handleRemoteChildCrash stringify x now) x e.parentRef.id
        (getRestartKeyForRemote stringify x e.parentRef.id e.options) now := by
  unfold Tree.handleRemoteChildCrash
  split
  · exact .inl rfl
  · next e he =>
      obtain ⟨hmem, hid⟩ := mem_of_getRemoteChild he
      dsimp only
      split_ifs
      · refine .inr ⟨e, hmem, hid, CountsUnder.of_logs ?_ (logs_applyRemoteStrategy _)⟩
        exact ⟨rfl, rfl, rfl, rfl, rfl⟩
      · exact .inr ⟨e, hmem, hid, ⟨rfl, rfl, rfl, rfl, rfl⟩⟩
      · exact .inl rfl

/-! ## Killed actors -/

/-- Nobody is taken off the reports of killed actors. -/
def Reports (t t' : Tree N V) : Prop :=
  (∀ x ∈ t.killed, x ∈ t'.killed) ∧ ∀ x ∈ t.stopRequests, x ∈ t'.stopRequests

section
omit [DecidableEq N]

theorem Reports.of_logs {t s u : Tree N V} (h : logs u = logs s)
    (hs : s.killed = t.killed ∧ s.stopRequests = t.stopRequests) : Reports t u := by
  simp only [logs, Prod.mk.injEq] at h
  obtain ⟨-, -, -, -, -, hkilled, hstops⟩ := h
  rw [hs.1] at hkilled
  rw [hs.2] at hstops
  exact ⟨fun x hx => hkilled ▸ hx, fun x hx => hstops ▸ hx⟩

theorem reports_kill (r : ActorRef N) : Reports t (t.kill r) :=
  ⟨fun _ hx => List.mem_cons_of_mem _ hx, fun _ hx => List.mem_cons_of_mem _ hx⟩

theorem reports_handleRootCrash (r : ActorRef N) (now : Nat) :
    Reports t (t.handleRootCrash r now) := by
  unfold Tree.handleRootCrash
  dsimp only
  split
  · exact Reports.of_logs (logs_restart r) ⟨rfl, rfl⟩
  · by_cases hfull : t.supervisor.maxRestarts ≤ (rootRecord t.supervisor r.id now).count
    · rw [if_pos hfull]
      exact reports_kill (t := { t with supervisor := _, rootCrashes := _ }) r
    · rw [if_neg hfull]
      exact ⟨fun _ hx => hx, fun _ hx => List.mem_cons_of_mem _ hx⟩

theorem reports_handleChildCrash (r : ActorRef N) (m : ActorMetadata N V) (p : ActorRef N)
    (now : Nat) : Reports t (t.handleChildCrash stringify r m p now) := by
  unfold Tree.handleChildCrash
  split_ifs
  · dsimp only
    split_ifs
    · exact Reports.of_logs (logs_applyStrategy _ _) ⟨rfl, rfl⟩
    · exact reports_kill (t := { t with childSupervisor := _, childCrashes := _ }) r
  · exact ⟨fun _ hx => hx, fun _ hx => hx⟩

end

theorem reports_handleRemoteChildCrash (x : ActorId) (now : Nat) :
    Reports t (t.handleRemoteChildCrash stringify x now) := by
  unfold Tree.handleRemoteChildCrash
  split
  · exact ⟨fun _ hx => hx, fun _ hx => hx⟩
  · dsimp only
    split_ifs
    · exact Reports.of_logs (logs_applyRemoteStrategy _) ⟨rfl, rfl⟩
    · exact ⟨fun _ hx => hx, fun _ hx => hx⟩
    · exact ⟨fun _ hx => hx, fun _ hx => hx⟩

theorem reports_step {a : TreeAction N V} {t' : Tree N V} (h : t.step stringify a = some t') :
    Reports t t' := by
  by_cases hcrash : ∃ r now, a = .crash r now
  · obtain ⟨r, now, rfl⟩ := hcrash
    dsimp only [Tree.step] at h
    split_ifs at h
    cases h
    unfold Tree.handleCrash
    split
    · exact reports_handleChildCrash _ _ _ _
    · split_ifs
      · exact ⟨fun _ hx => hx, fun _ hx => hx⟩
      · exact reports_handleRootCrash _ _
  · by_cases hremote : ∃ x now, a = .remoteCrash x now
    · obtain ⟨x, now, rfl⟩ := hremote
      cases h
      exact reports_handleRemoteChildCrash _ _
    · exact Reports.of_logs (logs_of_not_crash h (fun r now heq => hcrash ⟨r, now, heq⟩)
        fun x now heq => hremote ⟨x, now, heq⟩) ⟨rfl, rfl⟩

omit [DecidableEq N] in
/-- A longer log says the same about lineages that existed before. -/
theorem restartsSinceReset_extend {t' : Tree N V} (h : Extends t.toTables t'.toTables)
    {κ : Type} [DecidableEq κ] {cs : List (Counted κ)} (hlog : ∀ c ∈ cs, c.id < t.nextId)
    (σ : ActorId) (key : κ) :
    restartsSinceReset t'.lineage σ key cs = restartsSinceReset t.lineage σ key cs :=
  restartsSinceReset_congr fun c hc => h.lineage c.id (hlog c hc)

end

end Libeam.Proofs.CrashLog
