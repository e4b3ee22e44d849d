import Libeam.Proofs.CrashLog
/-!
# Restart limits of root actors

The root supervisor counts under the id of the instance, and every restart makes a
new one.
-/

namespace Libeam.Proofs.RootLimits

open Libeam.System (ActorId Supervisor SupervisionStrategy)
open Supervision Lib.Transition TreeSteps CrashLog

variable {N V : Type}

/-! ## The limit -/

section
variable {t : Tree N V}

/-- A crash of a root actor that is still there. -/
def RootCrash (t : Tree N V) (r : ActorRef N) : Prop :=
  r.id ∈ t.actors ∧ t.parentOf r.id = none ∧ r.id ∉ t.remoteParents

/-- The restarts that the lineage of an instance has had when it crashes. -/
def rootRestarts (t : Tree N V) (id : ActorId) (now : Nat) : Nat :=
  if rootResets t.supervisor id now then 0
  else restartsSinceReset t.lineage (t.lineage id) (t.lineage id) t.rootCrashes

/-- No lineage of root actors has been restarted too often, and a crash beyond the
limit has stopped the actor and reported it killed. -/
structure RootLimit (t : Tree N V) : Prop where
  restarts : ∀ σ, restartsSinceReset t.lineage σ σ t.rootCrashes ≤ t.supervisor.maxRestarts
  killed : ∀ later c earlier, t.rootCrashes = later ++ c :: earlier →
    t.supervisor.maxRestarts ≤ (if c.reset then 0 else
      restartsSinceReset t.lineage (t.lineage c.id) (t.lineage c.id) earlier) →
    c.id ∈ t.killed ∧ c.id ∈ t.stopRequests

/-- A root actor whose lineage has used up its restarts crashes as the instance whose
own record says so. -/
def RootGuard (t : Tree N V) (a : TreeAction N V) : Prop :=
  ∀ r now, a = .crash r now → RootCrash t r → 0 < t.supervisor.maxRestarts →
    t.supervisor.maxRestarts ≤ rootRestarts t r.id now →
    ∃ record, t.supervisor.restartCounts r.id = some record ∧
      t.supervisor.maxRestarts ≤ record.count

theorem rootRecord_count (v : Supervisor) (id : ActorId) (now : Nat) :
    (rootRecord v id now).count =
      if rootResets v id now then 0 else ((v.restartCounts id).map (·.count)).getD 0 := by
  unfold rootRecord rootResets
  cases v.restartCounts id with
  | none => simp
  | some record =>
      by_cases hout : v.periodMs < now - record.timestamp
      · simp [hout]
      · simp [hout]

theorem handleCrash_limits (v : Supervisor) (id : ActorId) (now : Nat) :
    (v.handleCrash id now).1.maxRestarts = v.maxRestarts ∧
      (v.handleCrash id now).1.strategy = v.strategy := by
  unfold Supervisor.handleCrash
  dsimp only
  split_ifs <;> exact ⟨rfl, rfl⟩

/-- Under strategy `Restart` the decision depends on the record only. -/
theorem handleCrash_decision {v : Supervisor} (hrestart : v.strategy = .Restart) (id : ActorId)
    (now : Nat) :
    (v.handleCrash id now).2 =
      if v.maxRestarts ≤ (rootRecord v id now).count then .Stop else .Restart := by
  unfold Supervisor.handleCrash
  change (if v.maxRestarts ≤ (rootRecord v id now).count then _ else _ :
    Supervisor × SupervisionStrategy).2 = _
  by_cases hfull : v.maxRestarts ≤ (rootRecord v id now).count
  · rw [if_pos hfull, if_pos hfull]
  · rw [if_neg hfull, if_neg hfull]
    exact hrestart

/-- The record of the instance is used up when the guard says so of its lineage. -/
theorem exhausted_iff_guard {r : ActorRef N} {now : Nat}
    (hfull : t.supervisor.maxRestarts ≤ rootRestarts t r.id now) :
    t.supervisor.maxRestarts ≤ (rootRecord t.supervisor r.id now).count ↔
      (0 < t.supervisor.maxRestarts → ∃ record, t.supervisor.restartCounts r.id = some record ∧
        t.supervisor.maxRestarts ≤ record.count) := by
  rw [rootRecord_count]
  refine exhausted_iff fun hreset => ?_
  rw [rootRestarts, if_pos hreset] at hfull
  exact Nat.eq_zero_of_le_zero hfull

theorem killed_handleRootCrash (hrestart : t.supervisor.strategy = .Restart) {r : ActorRef N}
    {now : Nat} (hfull : t.supervisor.maxRestarts ≤ (rootRecord t.supervisor r.id now).count) :
    r.id ∈ (t.handleRootCrash r now).killed ∧ r.id ∈ (t.handleRootCrash r now).stopRequests := by
  unfold Tree.handleRootCrash
  dsimp only
  rw [handleCrash_decision hrestart, if_pos hfull]
  dsimp only
  rw [if_pos hfull]
  exact ⟨List.mem_cons_self, List.mem_cons_self⟩

variable [DecidableEq N] {stringify : List V → String}

/-- A step is a crash of a root actor that is there, or leaves the log of such
crashes alone. -/
theorem rootCrashes_step {a : TreeAction N V} {t' : Tree N V}
    (hstep : t.step stringify a = some t') :
    (∃ r now, a = .crash r now ∧ RootCrash t r ∧ t' = t.handleRootCrash r now) ∨
    ((∀ r now, a = .crash r now → ¬ RootCrash t r) ∧ t'.rootCrashes = t.rootCrashes ∧
      t'.supervisor.maxRestarts = t.supervisor.maxRestarts ∧
      t'.supervisor.strategy = t.supervisor.strategy) := by
  by_cases hcrash : ∃ r now, a = .crash r now
  · obtain ⟨r, now, rfl⟩ := hcrash
    dsimp only [Tree.step] at hstep
    split_ifs at hstep
    cases hstep
    unfold Tree.handleCrash
    split
    · next actorClass options p hm =>
        have hnot : ¬ RootCrash t r := by
          rintro ⟨-, hparent, -⟩
          unfold Tables.parentOf at hparent
          rw [hm] at hparent
          cases hparent
        refine .inr ⟨fun r' now' heq => by cases heq; exact hnot, ?_⟩
        by_cases hp : p.id ∈ t.actors
        · have hlogs := handleChildCrash_logs stringify r
            (m := ⟨actorClass, options, some p⟩) now hp
          exact ⟨hlogs.rootCrashes, by rw [hlogs.supervisor], by rw [hlogs.supervisor]⟩
        · unfold Tree.handleChildCrash
          rw [if_neg hp]
          exact ⟨rfl, rfl, rfl⟩
    · next hmetadata =>
        split_ifs with hremote
        · refine .inr ⟨fun r' now' heq => ?_, rfl, rfl, rfl⟩
          cases heq
          exact fun hroot => hroot.2.2 hremote
        · obtain ⟨-, -, -, hsupervisor, hlog⟩ := handleRootCrash_logs (t := t) r now
          by_cases hlive : r.id ∈ t.actors
          · refine .inl ⟨r, now, rfl, ⟨hlive, ?_, hremote⟩, rfl⟩
            cases hparent : t.parentOf r.id with
            | none => rfl
            | some p =>
                obtain ⟨⟨c, o, q⟩, hm, rfl⟩ := Option.bind_eq_some_iff.1 hparent
                exact absurd hm (hmetadata c o p)
          · refine .inr ⟨fun r' now' heq => ?_, ?_, ?_, ?_⟩
            · cases heq
              exact fun hroot => hlive hroot.1
            · rw [hlog, if_neg hlive]
            · rw [hsupervisor]
              exact (handleCrash_limits _ _ _).1
            · rw [hsupervisor]
              exact (handleCrash_limits _ _ _).2
  · refine .inr ⟨fun r now heq => absurd ⟨r, now, heq⟩ hcrash, ?_⟩
    by_cases hremote : ∃ x now, a = .remoteCrash x now
    · obtain ⟨x, now, rfl⟩ := hremote
      cases hstep
      rcases handleRemoteChildCrash_logs t stringify x now with
        hsame | ⟨e, -, -, hlogs⟩
      · simp only [logs, Prod.mk.injEq] at hsame
        exact ⟨hsame.2.2.2.1, by rw [hsame.2.1], by rw [hsame.2.1]⟩
      · exact ⟨hlogs.rootCrashes, by rw [hlogs.supervisor], by rw [hlogs.supervisor]⟩
    · have hsame := logs_of_not_crash hstep (fun r now heq => hcrash ⟨r, now, heq⟩)
        fun x now heq => hremote ⟨x, now, heq⟩
      simp only [logs, Prod.mk.injEq] at hsame
      exact ⟨hsame.2.2.2.1, by rw [hsame.2.1], by rw [hsame.2.1]⟩

/-- What holds in a run under strategy `Restart` while its steps meet the guard. -/
structure RootRun (t : Tree N V) : Prop where
  sound : SoundTree t
  strategy : t.supervisor.strategy = .Restart
  logged : ∀ c ∈ t.rootCrashes, c.id < t.nextId
  limit : RootLimit t

omit [DecidableEq N] in
theorem restartsSinceReset_root {r : ActorRef N} {now : Nat} {restarted : Bool} :
    restartsSinceReset t.lineage (t.lineage r.id) (t.lineage r.id)
        (⟨r.id, r.id, rootResets t.supervisor r.id now, restarted⟩ :: t.rootCrashes) =
      rootRestarts t r.id now + (if restarted then 1 else 0) := by
  have hresets : resetsLineage t.lineage (t.lineage r.id) (t.lineage r.id)
      ⟨r.id, r.id, rootResets t.supervisor r.id now, restarted⟩ =
        rootResets t.supervisor r.id now := by
    simp [resetsLineage]
  rw [restartsSinceReset, hresets]
  unfold rootRestarts
  by_cases hrestarted : restarted = true
  · rw [if_pos ⟨hrestarted, rfl⟩, if_pos hrestarted]
  · rw [if_neg fun hboth => hrestarted hboth.1, if_neg hrestarted, Nat.add_zero]

theorem rootRun_keep {a : TreeAction N V} {t' : Tree N V} (h : RootRun t) (hguard : RootGuard t a)
    (hstep : t.step stringify a = some t') : RootRun t' := by
  have hsound := soundTree_step h.sound hstep
  have hext := steps_extends (step_cases hstep)
  have hreports := reports_step hstep
  rcases rootCrashes_step hstep with ⟨r, now, rfl, hroot, rfl⟩ | ⟨-, hlog, hmax, hstrategy⟩
  · obtain ⟨-, -, -, hsupervisor, hlog⟩ := handleRootCrash_logs (t := t) r now
    rw [if_pos hroot.1, handleCrash_decision h.strategy] at hlog
    have hmax : (t.handleRootCrash r now).supervisor.maxRestarts = t.supervisor.maxRestarts := by
      rw [hsupervisor]
      exact (handleCrash_limits _ _ _).1
    have hnew : ∀ c ∈ (t.handleRootCrash r now).rootCrashes, c.id < t.nextId :=
      logged_cons hlog (h.sound.tables.lt_of_live hroot.1) h.logged
    have hdecided : t.supervisor.maxRestarts ≤ rootRestarts t r.id now →
        t.supervisor.maxRestarts ≤ (rootRecord t.supervisor r.id now).count := fun hfull =>
      (exhausted_iff_guard hfull).2 fun hpos => hguard r now rfl hroot hpos hfull
    refine ⟨hsound, ?_, fun c hc => Nat.lt_of_lt_of_le (hnew c hc) hext.nextId, ?_, ?_⟩
    · rw [hsupervisor, (handleCrash_limits _ _ _).2]
      exact h.strategy
    · intro σ
      rw [restartsSinceReset_extend hext hnew, hmax, hlog]
      by_cases hown : decide ((if t.supervisor.maxRestarts ≤
          (rootRecord t.supervisor r.id now).count then SupervisionStrategy.Stop
          else SupervisionStrategy.Restart) = SupervisionStrategy.Restart) = true ∧
          t.lineage r.id = σ
      · obtain ⟨hrestarted, rfl⟩ := hown
        rw [restartsSinceReset_root, if_pos hrestarted]
        have hnotfull : ¬ t.supervisor.maxRestarts ≤ (rootRecord t.supervisor r.id now).count := by
          intro hfull
          rw [if_pos hfull] at hrestarted
          exact absurd hrestarted (by decide)
        have hroom : ¬ t.supervisor.maxRestarts ≤ rootRestarts t r.id now :=
          fun hfull => hnotfull (hdecided hfull)
        omega
      · exact Nat.le_trans (restartsSinceReset_le_of_not hown) (h.limit.restarts σ)
    · intro later c earlier heq hfull
      rw [hmax] at hfull
      have hearlier : ∀ d ∈ earlier, d.id < t.nextId := fun d hd => hnew d (by
        rw [heq]
        exact List.mem_append_right _ (List.mem_cons_of_mem _ hd))
      have hc : c.id < t.nextId := hnew c (by
        rw [heq]
        exact List.mem_append_right _ List.mem_cons_self)
      rw [hext.lineage c.id hc, restartsSinceReset_extend hext hearlier] at hfull
      rw [hlog] at heq
      cases later with
      | nil =>
          obtain ⟨rfl, rfl⟩ := List.cons.inj heq
          exact killed_handleRootCrash h.strategy (hdecided hfull)
      | cons d later =>
          obtain ⟨-, heq⟩ := List.cons.inj heq
          obtain ⟨hkilled, hstopped⟩ := h.limit.killed later c earlier heq hfull
          exact ⟨hreports.1 _ hkilled, hreports.2 _ hstopped⟩
  · have hold : ∀ c ∈ t'.rootCrashes, c.id < t.nextId := by
      rw [hlog]
      exact h.logged
    refine ⟨hsound, hstrategy.trans h.strategy,
      fun c hc => Nat.lt_of_lt_of_le (hold c hc) hext.nextId, ?_, ?_⟩
    · intro σ
      rw [restartsSinceReset_extend hext hold, hmax, hlog]
      exact h.limit.restarts σ
    · intro later c earlier heq hfull
      rw [hlog] at heq
      have hearlier : ∀ d ∈ earlier, d.id < t.nextId := fun d hd => h.logged d (by
        rw [heq]
        exact List.mem_append_right _ (List.mem_cons_of_mem _ hd))
      have hc : c.id < t.nextId := h.logged c (by
        rw [heq]
        exact List.mem_append_right _ List.mem_cons_self)
      rw [hmax, hext.lineage c.id hc, restartsSinceReset_extend hext hearlier] at hfull
      obtain ⟨hkilled, hstopped⟩ := h.limit.killed later c earlier heq hfull
      exact ⟨hreports.1 _ hkilled, hreports.2 _ hstopped⟩

/-- A crash without the guard restarts the lineage once too often. -/
theorem rootRun_break {a : TreeAction N V} {t' : Tree N V} (h : RootRun t)
    (hguard : ¬ RootGuard t a) (hstep : t.step stringify a = some t') : ¬ RootLimit t' := by
  unfold RootGuard at hguard
  push Not at hguard
  obtain ⟨r, now, rfl, hroot, hpos, hfull, hrecord⟩ := hguard
  intro hlimit
  have hext := steps_extends (step_cases hstep)
  rcases rootCrashes_step hstep with ⟨r', now', heq, -, rfl⟩ | ⟨hnot, -⟩
  · cases heq
    obtain ⟨-, -, -, hsupervisor, hlog⟩ := handleRootCrash_logs (t := t) r now
    have hroom : ¬ t.supervisor.maxRestarts ≤ (rootRecord t.supervisor r.id now).count := by
      intro hexhausted
      obtain ⟨record, hr, hle⟩ := (exhausted_iff_guard hfull).1 hexhausted hpos
      exact absurd hle (Nat.not_le.2 (hrecord record hr))
    rw [if_pos hroot.1, handleCrash_decision h.strategy, if_neg hroom] at hlog
    have hnew : ∀ c ∈ (t.handleRootCrash r now).rootCrashes, c.id < t.nextId :=
      logged_cons hlog (h.sound.tables.lt_of_live hroot.1) h.logged
    have hbound := hlimit.restarts (t.lineage r.id)
    rw [restartsSinceReset_extend hext hnew, hsupervisor, (handleCrash_limits _ _ _).1, hlog,
      restartsSinceReset_root, if_pos (by decide)] at hbound
    omega
  · exact hnot r now rfl hroot

/-- Lineages of root actors stay within the limit if and only if, whenever a lineage
has used up its restarts and crashes, its present instance has used them up alone. -/
theorem root_limit_iff (id : N) (childSupervision : ActorId → ChildSupervisionOptions)
    (maxRestarts periodMs : Nat) {as : List (TreeAction N V)} {u : Tree N V}
    (hrun : run (Tree.step stringify)
      (Tree.init id childSupervision (.new .Restart maxRestarts periodMs)) as = some u) :
    Throughout (Tree.step stringify) RootLimit
        (Tree.init id childSupervision (.new .Restart maxRestarts periodMs)) as ↔
      Along (Tree.step stringify) RootGuard
        (Tree.init id childSupervision (.new .Restart maxRestarts periodMs)) as := by
  have hinit : RootRun (Tree.init id childSupervision (.new .Restart maxRestarts periodMs) :
      Tree N V) :=
    { sound := soundTree_init _ _ _
      strategy := rfl
      logged := fun c hc => (List.not_mem_nil hc).elim
      limit := ⟨fun _ => Nat.zero_le _, fun later c earlier heq => by cases later <;> cases heq⟩ }
  exact throughout_iff_along (A := fun _ _ => True)
    (fun _ _ _ h _ hguard hstep => rootRun_keep h hguard hstep) (fun _ h => h.limit)
    (fun _ _ _ h _ hguard hstep => rootRun_break h hguard hstep) hinit
    (along_of_forall_mem (P := fun _ => True) (fun _ _ => trivial) _) hrun

end

/-! ## An instance without a record -/

/-- One restart in 1000 ms. -/
def limited : Tree Unit Nat :=
  .init () (fun _ => ⟨.oneForOne, 1, 1000⟩) (.new .Restart 1 1000)

def rootRef (id : ActorId) : ActorRef Unit := ⟨(), id, none, 0⟩

/-- A root actor crashes and is restarted; then its new instance crashes. -/
def rootCrashesTwice : List (TreeAction Unit Nat) :=
  [.spawn "Counter" {}, .crash (rootRef 0) 0, .resumes 0 .success, .resumes 0 .success,
    .resumes 0 .success, .crash (rootRef 1) 1]

/-- Both crashes come within the period, and both are answered with a restart. -/
theorem root_restarted_twice :
    ∃ u, run (Tree.step fun args => toString args) limited rootCrashesTwice = some u ∧
      u.supervisor.maxRestarts < restartsSinceReset u.lineage 0 0 u.rootCrashes :=
  ⟨_, rfl, by decide⟩

theorem root_limit_iff_twice :
    Throughout (Tree.step fun args => toString args) RootLimit limited rootCrashesTwice ↔
      Along (Tree.step fun args => toString args) RootGuard limited rootCrashesTwice :=
  root_limit_iff () _ 1 1000 rfl

end Libeam.Proofs.RootLimits
