import Libeam.Proofs.CrashLog
import Libeam.Proofs.RestartBudget
/-!
# Restart limits of children

The child supervisor counts under a string.  Made of a name or of arguments it is the
same for all instances of a lineage, made of an id it is not.
-/

namespace Libeam.Proofs.ChildLimits

open Libeam.System (ActorId Supervisor)
open Supervision Lib.Transition TreeTables TreeSteps CrashLog
open RestartBudget (keyed_inj canRestart_of_ne)

variable {N V : Type}

/-! ## Keys and limits -/

section
variable {t : Tree N V}

/-- Neither a name nor arguments: the restart key is made of the id of the instance. -/
def Unkeyed (options : SpawnOptions V) : Prop :=
  (∀ name, options.name = some name → name = "") ∧ options.args = none

variable (stringify : List V → String)

/-- The restarts that the lineage of a child has had when it crashes. -/
def childRestarts (t : Tree N V) (id p : ActorId) (options : SpawnOptions V) (now : Nat) : Nat :=
  if t.childSupervisor.resets (getRestartKey stringify id p (some options))
      (t.childSupervision p).periodMs now then 0
  else restartsSinceReset t.lineage (t.lineage id)
    (getRestartKey stringify (t.lineage id) p (some options)) t.childCrashes

/-- No lineage of children on this node has been restarted too often. -/
def ChildLimit (t : Tree N V) : Prop :=
  ∀ σ m p, t.spawned σ = some m → m.parent = some p →
    restartsSinceReset t.lineage σ (getRestartKey stringify σ p.id (some m.options))
      t.childCrashes ≤ (t.childSupervision p.id).maxRestarts

/-- A child without name and arguments whose lineage has used up its restarts crashes
as an instance whose own record says so. -/
def ChildGuard (t : Tree N V) (a : TreeAction N V) : Prop :=
  ∀ r now m p, a = .crash r now → t.actorMetadata r.id = some m → m.parent = some p →
    p.id ∈ t.actors → Unkeyed m.options → 0 < (t.childSupervision p.id).maxRestarts →
    (t.childSupervision p.id).maxRestarts ≤ childRestarts stringify t r.id p.id m.options now →
    ∃ record, t.childSupervisor.restartCounts
        (getRestartKey stringify r.id p.id (some m.options)) = some record ∧
      (t.childSupervision p.id).maxRestarts ≤ record.count

variable {stringify}

theorem record_count (v : ChildSupervisor) (key : String) (periodMs now : Nat) :
    (v.record key periodMs now).count =
      if v.resets key periodMs now then 0 else ((v.restartCounts key).map (·.count)).getD 0 := by
  unfold ChildSupervisor.record ChildSupervisor.resets
  cases v.restartCounts key with
  | none => simp
  | some record =>
      by_cases hout : periodMs < now - record.timestamp
      · simp [hout]
      · simp [hout]

theorem canRestart_decision (v : ChildSupervisor) (key : String) (o : ChildSupervisionOptions)
    (now : Nat) :
    (v.canRestart key o now).2 = decide ((v.record key o.periodMs now).count < o.maxRestarts) := by
  unfold ChildSupervisor.canRestart
  dsimp only
  split_ifs with hfull
  · exact (decide_eq_false (Nat.not_lt.2 hfull)).symm
  · exact (decide_eq_true (Nat.not_le.1 hfull)).symm

/-- The count in the table after a decision. -/
theorem canRestart_count (v : ChildSupervisor) (key : String) (o : ChildSupervisionOptions)
    (now : Nat) :
    (((v.canRestart key o now).1.restartCounts key).map (·.count)).getD 0 =
      (v.record key o.periodMs now).count + if (v.canRestart key o now).2 then 1 else 0 := by
  rw [canRestart_decision]
  unfold ChildSupervisor.canRestart
  dsimp only
  by_cases hfull : o.maxRestarts ≤ (v.record key o.periodMs now).count
  · rw [if_pos hfull, decide_eq_false (Nat.not_lt.2 hfull)]
    simp only [Function.update_self, Option.map_map]
    cases hr : v.restartCounts key with
    | none => simp [ChildSupervisor.record, hr]
    | some record => simp
  · rw [if_neg hfull, decide_eq_true (Nat.not_le.1 hfull)]
    simp

/-- With a name or arguments the key is the same for all instances. -/
theorem getRestartKey_keyed {options : SpawnOptions V} (h : ¬ Unkeyed options) (x y p : ActorId) :
    getRestartKey stringify x p (some options) = getRestartKey stringify y p (some options) := by
  unfold getRestartKey childKey childKey.byArgs
  rcases options with ⟨name, args⟩
  cases args with
  | some args => rfl
  | none =>
      cases name with
      | none => exact absurd ⟨fun _ h => (nomatch h), rfl⟩ h
      | some name =>
          by_cases hname : name = ""
          · refine absurd ⟨fun other hother => ?_, rfl⟩ h
            cases hother
            exact hname
          · simp [hname]

variable [DecidableEq N]

/-- A step counts the crash of a child on this node, or that of a child on another
node, or no crash of a child. -/
theorem childCrashes_step (h : SoundTree t) {a : TreeAction N V} {t' : Tree N V}
    (hstep : t.step stringify a = some t') :
    (∃ r now m p, a = .crash r now ∧ t.actorMetadata r.id = some m ∧ m.parent = some p ∧
      p.id ∈ t.actors ∧
      CountsUnder t t' r.id p.id (getRestartKey stringify r.id p.id (some m.options)) now) ∨
    ((∀ r now m p, a = .crash r now → t.actorMetadata r.id = some m → m.parent = some p →
        p.id ∉ t.actors) ∧
      ((t'.childSupervision = t.childSupervision ∧ t'.childSupervisor = t.childSupervisor ∧
          t'.childCrashes = t.childCrashes) ∨
        ∃ x p part now, t.spawned x = none ∧ x < t.nextId ∧
          CountsUnder t t' x p (toString p ++ ":" ++ part) now)) := by
  by_cases hcrash : ∃ r now, a = .crash r now
  · obtain ⟨r, now, rfl⟩ := hcrash
    dsimp only [Tree.step] at hstep
    split_ifs at hstep
    cases hstep
    unfold Tree.handleCrash
    split
    · next actorClass options p hm =>
        by_cases hp : p.id ∈ t.actors
        · exact .inl ⟨r, now, ⟨actorClass, options, some p⟩, p, rfl, hm, rfl, hp,
            handleChildCrash_logs stringify r now hp⟩
        · refine .inr ⟨fun r' now' m q heq hm' hq => ?_, .inl ?_⟩
          · cases heq
            rw [hm] at hm'
            cases hm'
            cases hq
            exact hp
          · unfold Tree.handleChildCrash
            rw [if_neg hp]
            exact ⟨rfl, rfl, rfl⟩
    · next hmetadata =>
        refine .inr ⟨fun r' now' m q heq hm hq => ?_, .inl ?_⟩
        · cases heq
          obtain ⟨c, o, q'⟩ := m
          cases hq
          exact absurd hm (hmetadata c o q)
        · split_ifs
          · exact ⟨rfl, rfl, rfl⟩
          · obtain ⟨h1, h2, h3, -⟩ := handleRootCrash_logs (t := t) r now
            exact ⟨h1, h2, h3⟩
  · refine .inr ⟨fun r now m p heq => absurd ⟨r, now, heq⟩ hcrash, ?_⟩
    by_cases hremote : ∃ x now, a = .remoteCrash x now
    · obtain ⟨x, now, rfl⟩ := hremote
      cases hstep
      rcases handleRemoteChildCrash_logs t stringify x now with
        hsame | ⟨e, he, rfl, hlogs⟩
      · simp only [logs, Prod.mk.injEq] at hsame
        exact .inl ⟨hsame.1, hsame.2.2.1, hsame.2.2.2.2.1⟩
      · have hknown := h.tables.entries e he
        exact .inr ⟨_, _, _, _, hknown.spawned, hknown.lt, hlogs⟩
    · have hsame := logs_of_not_crash hstep (fun r now heq => hcrash ⟨r, now, heq⟩)
        fun x now heq => hremote ⟨x, now, heq⟩
      simp only [logs, Prod.mk.injEq] at hsame
      exact .inl ⟨hsame.1, hsame.2.2.1, hsame.2.2.2.2.1⟩

variable (stringify) in
/-- What holds in a run while its steps meet the guard. -/
structure ChildRun (t : Tree N V) : Prop where
  sound : SoundTree t
  logged : ∀ c ∈ t.childCrashes, c.id < t.nextId
  /-- A child on this node is counted under its own key. -/
  own : ∀ c ∈ t.childCrashes, ∀ m p, t.spawned c.id = some m → m.parent = some p →
    c.key = getRestartKey stringify c.id p.id (some m.options)
  counts : ∀ key, ((t.childSupervisor.restartCounts key).map (·.count)).getD 0 =
    restartsUnder key t.childCrashes
  under : ∀ p part, restartsUnder (toString p ++ ":" ++ part) t.childCrashes ≤
    (t.childSupervision p).maxRestarts
  limit : ChildLimit stringify t

namespace ChildRun

omit [DecidableEq N]

/-- The record that a crash finds shows the restarts granted under its key. -/
theorem record_eq_under (h : ChildRun stringify t) (key : String) (periodMs now : Nat) :
    (t.childSupervisor.record key periodMs now).count =
      if t.childSupervisor.resets key periodMs now then 0
      else restartsUnder key t.childCrashes := by
  rw [record_count, h.counts]

/-- All crashes of a lineage with a name or arguments are counted under one key. -/
theorem key_of_lineage (h : ChildRun stringify t) {σ : ActorId} {m : ActorMetadata N V}
    {p : ActorRef N} (hm : t.spawned σ = some m) (hp : m.parent = some p)
    (hkeyed : ¬ Unkeyed m.options) :
    ∀ c ∈ t.childCrashes, t.lineage c.id = σ →
      c.key = getRestartKey stringify σ p.id (some m.options) := by
  intro c hc hlineage
  cases hspawned : t.spawned c.id with
  | none =>
      have hself := h.sound.tables.lineage_unspawned _ hspawned
      rw [hself] at hlineage
      rw [hlineage, hm] at hspawned
      cases hspawned
  | some mc =>
      obtain ⟨m', hm', hoptions, hparent⟩ := h.sound.tables.inherits _ _ hspawned
      rw [hlineage, hm] at hm'
      cases hm'
      rw [hp] at hparent
      obtain ⟨q, hq, hqp⟩ := Option.map_eq_some_iff.1 hparent.symm
      rw [h.own c hc mc q hspawned hq, ← hoptions, hqp]
      exact getRestartKey_keyed hkeyed _ _ _

/-- The log after a step that counts a crash under `key`. -/
theorem counts_step (h : ChildRun stringify t) {t' : Tree N V} {x p : ActorId} {key : String}
    {now : Nat} (hcounts : CountsUnder t t' x p key now) (k : String) :
    ((t'.childSupervisor.restartCounts k).map (·.count)).getD 0 =
      restartsUnder k t'.childCrashes := by
  rw [hcounts.childSupervisor, hcounts.childCrashes, restartsUnder]
  by_cases hk : key = k
  · subst hk
    rw [canRestart_count, if_pos rfl, h.record_eq_under]
    dsimp only
    split_ifs <;> rfl
  · rw [if_neg hk, canRestart_of_ne _ _ _ _ (Ne.symm hk)]
    exact h.counts k

theorem under_step (h : ChildRun stringify t) {t' : Tree N V} {x p : ActorId} {part : String}
    {now : Nat} (hcounts : CountsUnder t t' x p (toString p ++ ":" ++ part) now) (q : ActorId)
    (other : String) :
    restartsUnder (toString q ++ ":" ++ other) t'.childCrashes ≤
      (t'.childSupervision q).maxRestarts := by
  rw [hcounts.childSupervision, hcounts.childCrashes, restartsUnder]
  by_cases hk : toString p ++ ":" ++ part = toString q ++ ":" ++ other
  · rw [if_pos hk]
    obtain ⟨rfl, rfl⟩ := keyed_inj hk
    dsimp only
    rw [canRestart_decision, h.record_eq_under]
    have hold := h.under p part
    split_ifs <;> simp_all <;> omega
  · rw [if_neg hk]
    exact h.under q other

end ChildRun

section
omit [DecidableEq N]

/-- The crash of a child adds at most one restart to its own lineage. -/
theorem childLimit_step (h : ChildRun stringify t) {t' : Tree N V} {r : ActorRef N} {now : Nat}
    {m : ActorMetadata N V} {p : ActorRef N} (hm : t.actorMetadata r.id = some m)
    (hp : m.parent = some p)
    (hcounts : CountsUnder t t' r.id p.id (getRestartKey stringify r.id p.id (some m.options)) now)
    (hroom : (t.childSupervision p.id).maxRestarts ≤
        childRestarts stringify t r.id p.id m.options now →
      (t.childSupervision p.id).maxRestarts ≤ (t.childSupervisor.record
        (getRestartKey stringify r.id p.id (some m.options))
        (t.childSupervision p.id).periodMs now).count) :
    ∀ σ mσ pσ, t.spawned σ = some mσ → mσ.parent = some pσ →
      restartsSinceReset t.lineage σ (getRestartKey stringify σ pσ.id (some mσ.options))
        t'.childCrashes ≤ (t.childSupervision pσ.id).maxRestarts := by
  intro σ mσ pσ hmσ hpσ
  rw [hcounts.childCrashes]
  by_cases hown : (t.childSupervisor.canRestart
      (getRestartKey stringify r.id p.id (some m.options)) (t.childSupervision p.id) now).2 = true ∧
      t.lineage r.id = σ
  · obtain ⟨hgranted, rfl⟩ := hown
    obtain ⟨m', hm', hoptions, hparent⟩ :=
      h.sound.tables.inherits _ _ (h.sound.tables.live_of_metadata hm).2
    rw [hmσ] at hm'
    cases hm'
    rw [hp, hpσ] at hparent
    have hid : pσ.id = p.id := Option.some.inj hparent
    have hbefore : restartsSinceReset t.lineage (t.lineage r.id)
        (getRestartKey stringify (t.lineage r.id) pσ.id (some mσ.options))
        (⟨r.id, getRestartKey stringify r.id p.id (some m.options),
          t.childSupervisor.resets (getRestartKey stringify r.id p.id (some m.options))
            (t.childSupervision p.id).periodMs now, true⟩ :: t.childCrashes) =
        childRestarts stringify t r.id p.id m.options now + 1 := by
      rw [restartsSinceReset, if_pos ⟨rfl, rfl⟩, hoptions, hid]
      unfold childRestarts resetsLineage
      simp
    rw [hgranted, hbefore, hid]
    rw [canRestart_decision, decide_eq_true_eq] at hgranted
    by_cases hfull : (t.childSupervision p.id).maxRestarts ≤
        childRestarts stringify t r.id p.id m.options now
    · exact absurd (hroom hfull) (Nat.not_le.2 hgranted)
    · omega
  · exact Nat.le_trans (restartsSinceReset_le_of_not hown) (h.limit σ mσ pσ hmσ hpσ)

/-- The record of the instance is used up when the guard says so of its lineage. -/
theorem childExhausted_iff_guard {id p : ActorId} {options : SpawnOptions V} {now : Nat}
    (hfull : (t.childSupervision p).maxRestarts ≤ childRestarts stringify t id p options now) :
    (t.childSupervision p).maxRestarts ≤ (t.childSupervisor.record
        (getRestartKey stringify id p (some options)) (t.childSupervision p).periodMs now).count ↔
      (0 < (t.childSupervision p).maxRestarts →
        ∃ record, t.childSupervisor.restartCounts (getRestartKey stringify id p (some options)) =
            some record ∧ (t.childSupervision p).maxRestarts ≤ record.count) := by
  rw [record_count]
  refine exhausted_iff fun hreset => ?_
  rw [childRestarts, if_pos hreset] at hfull
  exact Nat.eq_zero_of_le_zero hfull

/-- With a name or arguments the record of the key counts the whole lineage. -/
theorem childExhausted_of_keyed (h : ChildRun stringify t) {r : ActorRef N} {now : Nat}
    {m : ActorMetadata N V} {p : ActorRef N} (hm : t.actorMetadata r.id = some m)
    (hp : m.parent = some p) (hkeyed : ¬ Unkeyed m.options) :
    childRestarts stringify t r.id p.id m.options now ≤ (t.childSupervisor.record
      (getRestartKey stringify r.id p.id (some m.options))
      (t.childSupervision p.id).periodMs now).count := by
  obtain ⟨m', hm', hoptions, hparent⟩ :=
    h.sound.tables.inherits _ _ (h.sound.tables.live_of_metadata hm).2
  rw [hp] at hparent
  obtain ⟨q, hq, hqp⟩ := Option.map_eq_some_iff.1 hparent
  have hkeys := h.key_of_lineage hm' hq (hoptions ▸ hkeyed)
  rw [hoptions, hqp] at hkeys
  have hle := restartsSinceReset_le_under hkeys
  rw [h.record_eq_under, getRestartKey_keyed hkeyed r.id (t.lineage r.id)]
  unfold childRestarts
  rw [getRestartKey_keyed hkeyed r.id (t.lineage r.id)]
  split_ifs
  · exact Nat.le_refl _
  · exact hle

/-- The limits of a longer log, from those of the lineages that existed before. -/
theorem childLimit_extend (h : SoundTree t) {t' : Tree N V} (hext : Extends t.toTables t'.toTables)
    (hlog : ∀ c ∈ t'.childCrashes, c.id < t.nextId)
    (hlimit : ∀ σ m p, t.spawned σ = some m → m.parent = some p →
      restartsSinceReset t.lineage σ (getRestartKey stringify σ p.id (some m.options))
        t'.childCrashes ≤ (t'.childSupervision p.id).maxRestarts) : ChildLimit stringify t' := by
  intro σ m p hm hp
  rw [restartsSinceReset_extend hext hlog]
  by_cases hσ : σ < t.nextId
  · rw [hext.spawned σ hσ] at hm
    exact hlimit σ m p hm hp
  · have hother : ∀ c ∈ t'.childCrashes, t.lineage c.id ≠ σ := by
      rintro c hc rfl
      exact hσ (h.tables.lineage_lt c.id (hlog c hc))
    rw [restartsSinceReset_other hother]
    exact Nat.zero_le _

end

theorem childRun_keep {a : TreeAction N V} {t' : Tree N V} (h : ChildRun stringify t)
    (hguard : ChildGuard stringify t a) (hstep : t.step stringify a = some t') :
    ChildRun stringify t' := by
  have hsound := soundTree_step h.sound hstep
  have hext := steps_extends (step_cases hstep)
  rcases childCrashes_step h.sound hstep with
    ⟨r, now, m, p, rfl, hm, hp, hlive, hcounts⟩ | ⟨-, ⟨hlimits, hsupervisor, hlog⟩ |
      ⟨x, p, part, now, hx, hlt, hcounts⟩⟩
  · have hmspawned := (h.sound.tables.live_of_metadata hm).2
    have hrlt := h.sound.tables.spawned_lt _ _ hmspawned
    have hlogged : ∀ c ∈ t'.childCrashes, c.id < t.nextId :=
      logged_cons hcounts.childCrashes hrlt h.logged
    refine ⟨hsound, fun c hc => Nat.lt_of_lt_of_le (hlogged c hc) hext.nextId, ?_,
      h.counts_step hcounts, h.under_step hcounts, childLimit_extend h.sound hext hlogged ?_⟩
    · intro c hc mc pc hmc hpc
      rw [hext.spawned c.id (hlogged c hc)] at hmc
      rw [hcounts.childCrashes] at hc
      rcases List.mem_cons.1 hc with rfl | hc
      · rw [hmspawned] at hmc
        cases hmc
        rw [hp] at hpc
        cases hpc
        rfl
      · exact h.own c hc mc pc hmc hpc
    · rw [hcounts.childSupervision]
      refine childLimit_step h hm hp hcounts fun hfull => ?_
      by_cases hkeyed : Unkeyed m.options
      · exact (childExhausted_iff_guard hfull).2 fun hpos =>
          hguard r now m p rfl hm hp hlive hkeyed hpos hfull
      · exact Nat.le_trans hfull (childExhausted_of_keyed h hm hp hkeyed)
  · have hlogged : ∀ c ∈ t'.childCrashes, c.id < t.nextId := by
      rw [hlog]
      exact h.logged
    refine ⟨hsound, fun c hc => Nat.lt_of_lt_of_le (hlogged c hc) hext.nextId, ?_, ?_, ?_,
      childLimit_extend h.sound hext hlogged ?_⟩
    · intro c hc mc pc hmc hpc
      rw [hext.spawned c.id (hlogged c hc)] at hmc
      rw [hlog] at hc
      exact h.own c hc mc pc hmc hpc
    · rw [hsupervisor, hlog]
      exact h.counts
    · rw [hlimits, hlog]
      exact h.under
    · rw [hlimits, hlog]
      exact h.limit
  · have hlogged : ∀ c ∈ t'.childCrashes, c.id < t.nextId :=
      logged_cons hcounts.childCrashes hlt h.logged
    refine ⟨hsound, fun c hc => Nat.lt_of_lt_of_le (hlogged c hc) hext.nextId, ?_,
      h.counts_step hcounts, h.under_step hcounts, childLimit_extend h.sound hext hlogged ?_⟩
    · intro c hc mc pc hmc hpc
      rw [hext.spawned c.id (hlogged c hc)] at hmc
      rw [hcounts.childCrashes] at hc
      rcases List.mem_cons.1 hc with rfl | hc
      · rw [hx] at hmc
        cases hmc
      · exact h.own c hc mc pc hmc hpc
    · intro σ m q hm hq
      rw [hcounts.childCrashes, hcounts.childSupervision]
      refine Nat.le_trans (restartsSinceReset_le_of_not ?_) (h.limit σ m q hm hq)
      rintro ⟨-, hlineage⟩
      rw [h.sound.tables.lineage_unspawned x hx] at hlineage
      rw [← hlineage, hx] at hm
      cases hm

/-- A crash without the guard restarts the lineage once too often. -/
theorem childRun_break {a : TreeAction N V} {t' : Tree N V} (h : ChildRun stringify t)
    (hguard : ¬ ChildGuard stringify t a) (hstep : t.step stringify a = some t') :
    ¬ ChildLimit stringify t' := by
  unfold ChildGuard at hguard
  push Not at hguard
  obtain ⟨r, now, m, p, rfl, hm, hp, hlive, -, hpos, hfull, hrecord⟩ := hguard
  have hext := steps_extends (step_cases hstep)
  have hmspawned := (h.sound.tables.live_of_metadata hm).2
  have hrlt := h.sound.tables.spawned_lt _ _ hmspawned
  rcases childCrashes_step h.sound hstep with
    ⟨r', now', m', p', heq, hm', hp', -, hcounts⟩ | ⟨hnot, -⟩
  · cases heq
    rw [hm] at hm'
    cases hm'
    rw [hp] at hp'
    cases hp'
    intro hlimit
    have hroom : ¬ (t.childSupervision p.id).maxRestarts ≤ (t.childSupervisor.record
        (getRestartKey stringify r.id p.id (some m.options))
        (t.childSupervision p.id).periodMs now).count := by
      intro hexhausted
      obtain ⟨record, hr, hle⟩ := (childExhausted_iff_guard hfull).1 hexhausted hpos
      exact absurd hle (Nat.not_le.2 (hrecord record hr))
    have hgranted : (t.childSupervisor.canRestart (getRestartKey stringify r.id p.id
        (some m.options)) (t.childSupervision p.id) now).2 = true := by
      rw [canRestart_decision]
      exact decide_eq_true (Nat.not_le.1 hroom)
    have hlogged : ∀ c ∈ t'.childCrashes, c.id < t.nextId :=
      logged_cons hcounts.childCrashes hrlt h.logged
    obtain ⟨mσ, hmσ, hoptions, hparent⟩ := h.sound.tables.inherits _ _ hmspawned
    rw [hp] at hparent
    obtain ⟨q, hq, hqp⟩ := Option.map_eq_some_iff.1 hparent
    have hσ := h.sound.tables.lineage_lt r.id hrlt
    have hbound := hlimit (t.lineage r.id) mσ q ((hext.spawned _ hσ).trans hmσ) hq
    rw [restartsSinceReset_extend hext hlogged, hcounts.childSupervision, hcounts.childCrashes,
      hoptions, hqp, hgranted, restartsSinceReset, if_pos ⟨rfl, rfl⟩] at hbound
    unfold childRestarts at hfull
    have hresets : resetsLineage t.lineage (t.lineage r.id)
        (getRestartKey stringify (t.lineage r.id) p.id (some m.options))
        ⟨r.id, getRestartKey stringify r.id p.id (some m.options),
          t.childSupervisor.resets (getRestartKey stringify r.id p.id (some m.options))
            (t.childSupervision p.id).periodMs now, true⟩ =
        t.childSupervisor.resets (getRestartKey stringify r.id p.id (some m.options))
          (t.childSupervision p.id).periodMs now := by
      simp [resetsLineage]
    rw [hresets] at hbound
    dsimp only at hbound
    omega
  · exact absurd hlive (hnot r now m p rfl hm hp)

/-- Lineages of children on this node stay within the limit if and only if, whenever
one without name and arguments has used up its restarts and crashes, its present
instance has used them up. -/
theorem child_limit_iff (stringify : List V → String) (id : N)
    (childSupervision : ActorId → ChildSupervisionOptions) (supervisor : Supervisor)
    {as : List (TreeAction N V)} {u : Tree N V}
    (hrun : run (Tree.step stringify) (Tree.init id childSupervision supervisor) as = some u) :
    Throughout (Tree.step stringify) (ChildLimit stringify)
        (Tree.init id childSupervision supervisor) as ↔
      Along (Tree.step stringify) (ChildGuard stringify)
        (Tree.init id childSupervision supervisor) as := by
  have hinit : ChildRun stringify (Tree.init id childSupervision supervisor : Tree N V) :=
    { sound := soundTree_init _ _ _
      logged := fun c hc => (List.not_mem_nil hc).elim
      own := fun c hc => (List.not_mem_nil hc).elim
      counts := fun _ => rfl
      under := fun _ _ => Nat.zero_le _
      limit := fun _ _ _ _ _ => Nat.zero_le _ }
  exact throughout_iff_along (A := fun _ _ => True)
    (fun _ _ _ h _ hguard hstep => childRun_keep h hguard hstep) (fun _ h => h.limit)
    (fun _ _ _ h _ hguard hstep => childRun_break h hguard hstep) hinit
    (along_of_forall_mem (P := fun _ => True) (fun _ _ => trivial) _) hrun

end

/-! ## A child with neither name nor arguments -/

/-- One restart in 1000 ms for the children of every actor. -/
def supervised : Tree Unit Nat :=
  .init () (fun _ => ⟨.oneForOne, 1, 1000⟩) (.new .Restart 1 1000)

def childRef (id : ActorId) : ActorRef Unit := ⟨(), id, none, 0⟩

/-- A child of actor 0 crashes and is restarted; then its new instance crashes. -/
def childCrashesTwice : List (TreeAction Unit Nat) :=
  [.spawn "Parent" {}, .spawnChild (childRef 0) "Worker" {}, .crash (childRef 1) 0,
    .resumes 0 .success, .resumes 0 .success, .resumes 0 .success, .crash (childRef 2) 1]

/-- The second instance is counted under another key. -/
theorem child_restarted_twice :
    ∃ u, run (Tree.step fun args => toString args) supervised childCrashesTwice = some u ∧
      (u.spawned 1).map (·.parent) = some (some (childRef 0)) ∧
      (u.childSupervision 0).maxRestarts < restartsSinceReset u.lineage 1
        (getRestartKey (fun args : List Nat => toString args) 1 0 (some {})) u.childCrashes :=
  ⟨_, rfl, rfl, by decide⟩

theorem child_limit_iff_twice :
    Throughout (Tree.step fun args => toString args) (ChildLimit fun args => toString args)
        supervised childCrashesTwice ↔
      Along (Tree.step fun args => toString args) (ChildGuard fun args => toString args)
        supervised childCrashesTwice :=
  child_limit_iff (fun args => toString args) () _ _ rfl

end Libeam.Proofs.ChildLimits
