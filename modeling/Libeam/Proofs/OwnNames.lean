import Libeam.Proofs.NameSteps
/-!
# Stopping an instance frees its own name

A stop does not look at what the name is bound to.  It frees no other binding as long as
an instance is given a name only when no other one has it.
-/

namespace Libeam.Proofs.OwnNames

open Libeam.System Libeam.System.Lifecycle Registry Migration Lib.Transition NameSteps

variable {V N : Type} [DecidableEq N] {l l' : Lifecycle V} {c c' : Naming N V}

/-- Whoever has a name that is bound is the one it is bound to. -/
structure Sound (c : Naming N V) : Prop where
  named : ∀ n, Named (c.systems n)
  own : ∀ name location, c.registry.lookup name = some location →
    ∀ location', c.Carries location' name → location' = location

/-- One node steps: whoever has a name had it, or has just been given it. -/
theorem carries_setSystem {n : N} (h : Named (c.systems n)) (hmoves : Moves (c.systems n) l')
    {location : ActorLocation N} {name : String}
    (hcarries : (c.setSystem n l').Carries location name) :
    c.Carries location name ∨ location.nodeId = n ∧
      (c.systems n).registers l' = some (name, location.actorId) := by
  obtain hnode | hmigration := hcarries
  · obtain ⟨n', id⟩ := location
    change ((c.setSystem n l').systems n').Carries id name at hnode
    rw [Naming.setSystem] at hnode
    dsimp only at hnode
    rw [Function.update_apply] at hnode
    split_ifs at hnode with hn
    · subst hn
      exact (hmoves.carries h hnode).imp Or.inl fun hnew => ⟨rfl, hnew⟩
    · exact Or.inl (Or.inl hnode)
  · exact Or.inl (Or.inr hmigration)

theorem named_setSystem (h : Sound c) {n : N} (hmoves : Moves (c.systems n) l') (n' : N) :
    Named ((c.setSystem n l').systems n') := by
  rw [Naming.setSystem]
  dsimp only
  rw [Function.update_apply]
  split_ifs with hn
  · exact (h.named n).moves hmoves
  · exact h.named n'

section
omit [DecidableEq N]

/-- A migration goes on, and waits no more than before. -/
theorem carries_setCall {i : Nat} {m m' : MigrateCall N} {location : ActorLocation N}
    {name : String} (hget : c.migrations[i]? = some m)
    (hcarries : (c.setCall i m').Carries location name) (hwaits : m'.waits → m.waits)
    (hnode : m'.node = m.node) (hid : m'.id = m.id) (hname : m'.actorName = m.actorName) :
    c.Carries location name := by
  obtain hlive | ⟨call, hcall, hwait, hcallnode, hcallid, hcallname⟩ := hcarries
  · exact Or.inl hlive
  · obtain hold | rfl := List.mem_or_eq_of_mem_set hcall
    · exact Or.inr ⟨call, hold, hwait, hcallnode, hcallid, hcallname⟩
    · exact Or.inr ⟨m, List.mem_of_getElem? hget, hwaits hwait, hnode.symm.trans hcallnode,
        hid.symm.trans hcallid, hname.symm.trans hcallname⟩

theorem lookup_unregister {name name' : String} {location : ActorLocation N}
    (hbound : (c.unregister name').registry.lookup name = some location) :
    c.registry.lookup name = some location := by
  change (c.registry.erase name').lookup name = some location at hbound
  by_cases hname : name = name'
  · rw [hname, AList.lookup_erase] at hbound
    cases hbound
  · rwa [AList.lookup_erase_ne hname] at hbound

theorem lookup_register {name name' : String} {location location' : ActorLocation N}
    (hbound : (c.register name' location').registry.lookup name = some location) :
    name = name' ∧ location = location' ∨
      name ≠ name' ∧ c.registry.lookup name = some location := by
  change (c.registry.insert name' location').lookup name = some location at hbound
  by_cases hname : name = name'
  · rw [hname, AList.lookup_insert] at hbound
    exact Or.inl ⟨hname, (Option.some.inj hbound).symm⟩
  · rw [AList.lookup_insert_ne hname] at hbound
    exact Or.inr ⟨hname, hbound⟩

theorem lookup_of_register_none {name name' : String} {location : ActorLocation N}
    (hlost : (c.register name' location).registry.lookup name = none) :
    c.registry.lookup name = none := by
  change (c.registry.insert name' location).lookup name = none at hlost
  by_cases hname : name = name'
  · rw [hname, AList.lookup_insert] at hlost
    cases hlost
  · rwa [AList.lookup_insert_ne hname] at hlost

theorem lookup_of_unregister_none {name name' : String}
    (hlost : (c.unregister name').registry.lookup name = none) :
    name = name' ∨ c.registry.lookup name = none := by
  by_cases hname : name = name'
  · exact Or.inl hname
  · change (c.registry.erase name').lookup name = none at hlost
    rw [AList.lookup_erase_ne hname] at hlost
    exact Or.inr hlost

end

/-- Apart from the registry, a step of a node is a step of its system. -/
theorem systemStep_eq (c : Naming N V) (n : N) (a : LifecycleAction V) (l' : Lifecycle V) :
    ∃ registry, c.systemStep n a l' = { c.setSystem n l' with registry := registry } := by
  have hfree : ∃ registry, (c.setSystem n l').free ((c.systems n).unregisters l' a) =
      { c.setSystem n l' with registry := registry } := by
    cases (c.systems n).unregisters l' a <;> exact ⟨_, rfl⟩
  obtain ⟨registry, hfree⟩ := hfree
  unfold Naming.systemStep
  rw [hfree]
  cases (c.systems n).registers l' <;> exact ⟨_, rfl⟩

/-- A name that is bound after a step of a node was bound before, or is registered. -/
theorem lookup_systemStep {n : N} {a : LifecycleAction V} {name : String}
    {location : ActorLocation N}
    (hbound : (c.systemStep n a l').registry.lookup name = some location) :
    (∃ id, (c.systems n).registers l' = some (name, id) ∧ location = ⟨n, id⟩) ∨
      (∀ id, (c.systems n).registers l' ≠ some (name, id)) ∧
        c.registry.lookup name = some location := by
  have hfree (e : Option (String × ActorId))
      (h : ((c.setSystem n l').free e).registry.lookup name = some location) :
      c.registry.lookup name = some location := by
    cases e with
    | none => exact h
    | some e => exact lookup_unregister (c := c.setSystem n l') h
  unfold Naming.systemStep at hbound
  cases hreg : (c.systems n).registers l' with
  | none =>
      rw [hreg] at hbound
      exact Or.inr ⟨nofun, hfree _ hbound⟩
  | some e =>
      rw [hreg] at hbound
      obtain ⟨rfl, rfl⟩ | ⟨hname, hold⟩ := lookup_register hbound
      · exact Or.inl ⟨e.2, rfl, rfl⟩
      · refine Or.inr ⟨fun id heq => ?_, hfree _ hold⟩
        injection heq with heq
        exact hname (congrArg Prod.fst heq).symm

/-- A name that a step of a node frees is unregistered. -/
theorem unregisters_of_lost {n : N} {a : LifecycleAction V} {name : String}
    {location : ActorLocation N} (hbound : c.registry.lookup name = some location)
    (hlost : (c.systemStep n a l').registry.lookup name = none) :
    ∃ id, (c.systems n).unregisters l' a = some (name, id) := by
  have hgive (d : Naming N V) (e : Option (String × ActorId))
      (h : (d.give n e).registry.lookup name = none) : d.registry.lookup name = none := by
    cases e with
    | none => exact h
    | some e => exact lookup_of_register_none h
  unfold Naming.systemStep at hlost
  have hfree := hgive _ _ hlost
  cases hun : (c.systems n).unregisters l' a with
  | none =>
      rw [hun] at hfree
      exact absurd (hbound.symm.trans hfree) nofun
  | some e =>
      rw [hun] at hfree
      obtain rfl | hnone := lookup_of_unregister_none hfree
      · exact ⟨e.2, rfl⟩
      · exact absurd (hbound.symm.trans hnone) nofun

omit [DecidableEq N] in
theorem sound_start (supervisor : N → Supervisor) :
    Sound (.start supervisor : Naming N V) where
  named n := ⟨⟨fun _ h => absurd h (Finset.notMem_empty _), fun _ _ h => absurd h List.not_mem_nil⟩,
    fun _ h => absurd h List.not_mem_nil⟩
  own _ _ h := by cases h

/-- A step of one node. -/
theorem Sound.systemStep (h : Sound c) {n : N} {a : LifecycleAction V}
    (hrefers : (c.systems n).Refers a) (hst : (c.systems n).step a = some l')
    (hapart : c.Apart (.system n a)) : Sound (c.systemStep n a l') := by
  have hnames := stepNames_step (h.named n) hrefers hst
  obtain ⟨registry, heq⟩ := systemStep_eq c n a l'
  refine ⟨fun n' => ?_, fun name location hbound location' hc => ?_⟩
  · rw [heq]
    exact named_setSystem h hnames.moves n'
  · have hcarries : c.Carries location' name ∨ location'.nodeId = n ∧
        (c.systems n).registers l' = some (name, location'.actorId) := by
      rw [heq] at hc
      exact carries_setSystem (h.named n) hnames.moves hc
    obtain ⟨id, hreg, rfl⟩ | ⟨hreg, hold⟩ := lookup_systemStep hbound
    · obtain hc | ⟨hn, hnew⟩ := hcarries
      · refine hapart name ⟨n, id⟩ ?_ location' (Or.inl hc)
        rw [Naming.names, hst, Option.bind_some, hreg]
        rfl
      · rw [hreg] at hnew
        obtain ⟨n', id'⟩ := location'
        cases hnew
        obtain rfl : n' = n := hn
        rfl
    · obtain hc | ⟨-, hnew⟩ := hcarries
      · exact h.own name location hold location' hc
      · exact absurd hnew (hreg _)

/-- A call of `migrate` waits for the instance that the name is bound to. -/
theorem Sound.migrate (h : Sound c) (n : N) (actorName : String) (targetNodeId : N) :
    Sound (c.migrate n actorName targetNodeId) := by
  unfold Naming.migrate
  split
  next => exact h
  next bound hbound =>
    split_ifs with hchecks
    · exact h
    · have hnode : bound.nodeId = n := by
        by_contra hne
        exact hchecks (Or.inr (Or.inl hne))
      refine ⟨h.named, fun name location hlookup location' hc => ?_⟩
      obtain hlive | ⟨m, hm, hwait, hmnode, hmid, rfl⟩ := hc
      · exact h.own name location hlookup location' (Or.inl hlive)
      · obtain hold | hnew := List.mem_append.1 hm
        · exact h.own _ location hlookup location' (Or.inr ⟨m, hold, hwait, hmnode, hmid, rfl⟩)
        · rw [List.mem_singleton.1 hnew] at hmnode hmid hlookup
          obtain rfl := Option.some.inj (hbound.symm.trans hlookup)
          obtain ⟨n', id'⟩ := location'
          obtain ⟨n'', id''⟩ := bound
          simp only at hmnode hmid hnode
          subst hmnode hmid hnode
          rfl

theorem moves_install (l : Lifecycle V) (actorName : String) :
    Moves l (Naming.install l actorName) :=
  .of_calls (grows_of_spawned rfl rfl rfl fun _ _ => Or.inl) rfl

theorem registers_install {l : Lifecycle V} {actorName name : String} {id : ActorId}
    (h : l.registers (Naming.install l actorName) = some (name, id)) :
    actorName = name ∧ l.node.nextId = id := by
  have hname : (Naming.install l actorName).nameOf l.node.nextId = some actorName := by
    simp [Lifecycle.nameOf, Naming.install]
  unfold Lifecycle.registers at h
  rw [hname, Option.bind_some] at h
  split_ifs at h
  injection h with h
  exact ⟨congrArg Prod.fst h, congrArg Prod.snd h⟩

theorem moves_cleanup (l : Lifecycle V) (id : ActorId) : Moves l (Naming.cleanup l id) :=
  .of_calls (grows_of_removed rfl rfl rfl rfl) rfl

/-- The next step of a migration. -/
theorem Sound.migrateStep (h : Sound c) {i : Nat} {m : MigrateCall N} {a : MigrateAction}
    (hget : c.migrations[i]? = some m) (hst : c.migrateStep i m a = some c')
    (hapart : c.Apart (.migration i a)) : Sound c' := by
  -- the migration alone goes on
  have hcall {m' : MigrateCall N} (hwaits : m'.waits → m.waits) (hnode : m'.node = m.node)
      (hid : m'.id = m.id) (hname : m'.actorName = m.actorName) : Sound (c.setCall i m') :=
    ⟨h.named, fun name location hbound location' hc => h.own name location hbound location'
      (carries_setCall hget hc hwaits hnode hid hname)⟩
  -- an instance leaves a node as well
  have hgone {m' : MigrateCall N} {n : N} {l : Lifecycle V} (hmoves : Moves (c.systems n) l)
      (hreg : (c.systems n).registers l = none) (hwaits : m'.waits → m.waits)
      (hnode : m'.node = m.node) (hid : m'.id = m.id) (hname : m'.actorName = m.actorName) :
      Sound ((c.setSystem n l).setCall i m') := by
    refine ⟨named_setSystem h hmoves, fun name location hbound location' hc => ?_⟩
    have hc := carries_setCall (c := c.setSystem n l) hget hc hwaits hnode hid hname
    obtain hc | ⟨-, hnew⟩ := carries_setSystem (h.named n) hmoves hc
    · exact h.own name location hbound location' hc
    · rw [hreg] at hnew
      cases hnew
  cases a with
  | executes =>
      simp only [Naming.migrateStep] at hst
      split_ifs at hst with hphase
      cases hst
      exact hcall (fun _ => by simp [MigrateCall.waits, hphase]) rfl rfl rfl
  | givesUp =>
      simp only [Naming.migrateStep] at hst
      split_ifs at hst
      cases hst
      exact hcall (by simp [MigrateCall.waits]) rfl rfl rfl
  | executeArrives =>
      simp only [Naming.migrateStep] at hst
      split_ifs at hst with hexecute
      cases hst
      have hmoves := moves_install (c.systems m.targetNodeId) m.actorName
      have hapart := hapart m.actorName
        ⟨m.targetNodeId, (c.systems m.targetNodeId).node.nextId⟩
        (by rw [Naming.names, hget, Option.bind_some, hexecute])
      refine ⟨named_setSystem h hmoves, fun name location hbound location' hc => ?_⟩
      have hc := carries_setCall (c := c.setSystem m.targetNodeId _) hget hc id rfl rfl rfl
      obtain hc | ⟨hn, hnew⟩ := carries_setSystem (h.named _) hmoves hc
      · exact h.own name location hbound location' hc
      · obtain ⟨rfl, hid⟩ := registers_install hnew
        rw [hapart location (Or.inr hbound)]
        obtain ⟨n', id'⟩ := location'
        cases hn
        cases hid
        rfl
  | executeThrows =>
      simp only [Naming.migrateStep] at hst
      split at hst
      next =>
        cases hst
        exact hcall id rfl rfl rfl
      next => cases hst
  | confirms =>
      simp only [Naming.migrateStep] at hst
      split at hst
      next id' hexecute =>
        cases hst
        have hapart := hapart m.actorName ⟨m.targetNodeId, id'⟩
          (by rw [Naming.names, hget, Option.bind_some, hexecute])
        refine ⟨h.named, fun name location hbound location' hc => ?_⟩
        have hc : c.Carries location' name :=
          carries_setCall (c := c.register _ _) hget hc id rfl rfl rfl
        obtain ⟨rfl, rfl⟩ | ⟨-, hold⟩ := lookup_register hbound
        · exact hapart location' (Or.inl hc)
        · exact h.own name location hold location' hc
      next => cases hst
  | refuses =>
      simp only [Naming.migrateStep] at hst
      split at hst
      next id _ =>
        cases hst
        refine hgone (moves_remove _ id) ?_ (fun hw => hw) rfl rfl rfl
        exact if_neg (Nat.lt_irrefl _)
      next => cases hst
  | executeReply =>
      simp only [Naming.migrateStep] at hst
      split at hst
      next =>
        cases hst
        refine ⟨h.named, fun name location hbound location' hc => ?_⟩
        have hc : c.Carries location' name :=
          carries_setCall (c := c.unregister _) hget hc (by simp [MigrateCall.waits]) rfl rfl rfl
        exact h.own name location (lookup_unregister hbound) location' hc
      next => cases hst
  | unregistered =>
      simp only [Naming.migrateStep] at hst
      split_ifs at hst
      cases hst
      refine hgone (moves_cleanup _ m.id) ?_ (by simp [MigrateCall.waits]) rfl rfl rfl
      exact if_neg (Nat.lt_irrefl _)

theorem Sound.step (h : Sound c) {a : NamingAction N V} (hapart : c.Apart a)
    (hst : c.step a = some c') : Sound c' := by
  cases a with
  | system n a =>
      simp only [Naming.step] at hst
      split_ifs at hst with hrefers
      obtain ⟨l', hl, rfl⟩ := Option.map_eq_some_iff.1 hst
      exact h.systemStep hrefers hl hapart
  | migrate n actorName targetNodeId =>
      cases hst
      exact h.migrate n actorName targetNodeId
  | migration i a =>
      obtain ⟨m, hget, hst⟩ := Option.bind_eq_some_iff.1 hst
      exact h.migrateStep hget hst hapart

/-- The one step of a migration that frees a name is the answer that it succeeded. -/
theorem migrateStep_of_lost {i : Nat} {m : MigrateCall N} {a : MigrateAction} {name : String}
    {location : ActorLocation N} (hst : c.migrateStep i m a = some c')
    (hbound : c.registry.lookup name = some location)
    (hlost : c'.registry.lookup name = none) :
    a = .executeReply ∧ m.waits ∧ m.actorName = name := by
  have hsame (heq : c'.registry = c.registry) : False := by
    rw [heq, hbound] at hlost
    cases hlost
  cases a with
  | confirms =>
      simp only [Naming.migrateStep] at hst
      split at hst
      next =>
        cases hst
        exact absurd (hbound.symm.trans (lookup_of_register_none hlost)) nofun
      next => cases hst
  | executeReply =>
      simp only [Naming.migrateStep] at hst
      split at hst
      next hphase _ =>
        cases hst
        obtain rfl | hnone := lookup_of_unregister_none hlost
        · exact ⟨rfl, by simp [MigrateCall.waits, hphase], rfl⟩
        · exact absurd (hbound.symm.trans hnone) nofun
      next => cases hst
  | executeThrows | refuses =>
      simp only [Naming.migrateStep] at hst
      split at hst
      next =>
        cases hst
        exact (hsame rfl).elim
      next => cases hst
  | executes | givesUp | executeArrives | unregistered =>
      simp only [Naming.migrateStep] at hst
      split_ifs at hst
      cases hst
      exact (hsame rfl).elim

/-- In a state where names are unique, whoever unregisters a name has it. -/
theorem Sound.freesOwn (h : Sound c) (a : NamingAction N V) : c.FreesOwn a := by
  intro c' hst name location hbound hlost
  cases a with
  | system n a =>
      simp only [Naming.step] at hst
      split_ifs at hst with hrefers
      obtain ⟨l', hl, rfl⟩ := Option.map_eq_some_iff.1 hst
      obtain ⟨id, hun⟩ := unregisters_of_lost hbound hlost
      have hcarries : c.Carries ⟨n, id⟩ name :=
        Or.inl ((stepNames_step (h.named n) hrefers hl).carries name id hun)
      rw [Naming.frees, hl, Option.bind_some, hun, ← h.own name location hbound _ hcarries]
      rfl
  | migrate n actorName targetNodeId =>
      cases hst
      have hsame : (c.migrate n actorName targetNodeId).registry = c.registry := by
        unfold Naming.migrate
        split
        · rfl
        · split_ifs <;> rfl
      rw [hsame, hbound] at hlost
      cases hlost
  | migration i a =>
      obtain ⟨m, hget, hst⟩ := Option.bind_eq_some_iff.1 hst
      obtain ⟨rfl, hwaits, hname⟩ := migrateStep_of_lost hst hbound hlost
      have hcarries : c.Carries ⟨m.node, m.id⟩ name :=
        Or.inr ⟨m, List.mem_of_getElem? hget, hwaits, rfl, rfl, hname⟩
      rw [Naming.frees, hget, ← h.own name location hbound _ hcarries]
      rfl

/-- A run in which an instance gets a name only while no other instance has it: every
binding that a stop, a restart or a migration takes out of the registry is that of the
instance stopped, restarted or migrated away. -/
theorem frees_own_of_apart {supervisor : N → Supervisor} {actions : List (NamingAction N V)}
    (hapart : Along Naming.step Naming.Apart (.start supervisor) actions) :
    Along Naming.step Naming.FreesOwn (.start supervisor) actions :=
  along_of_invariant (I := Sound) (fun _ _ _ h hapart hst => h.step hapart hst)
    (fun _ a h _ => h.freesOwn a) (sound_start supervisor) hapart

/-- One root supervisor for all nodes. -/
def supervisors (_ : Nat) : Supervisor := .new .Restart 5 5000

/-- An actor is spawned and stopped. -/
theorem frees_own_of_apart_once :
    Along Naming.step Naming.FreesOwn (.start supervisors : Naming Nat Nat)
      [.system 0 (.spawn { name := some "cache" } false),
        .system 0 (.stop 0 (some "cache"))] := by
  refine frees_own_of_apart ⟨fun name location hnames location' huses => ?_, fun c hc => ?_⟩
  · -- nobody has a name at the start
    obtain hcarries | hbound := huses
    · obtain ⟨-, ⟨hlive, -⟩ | ⟨call, hcall, -⟩⟩ | ⟨m, hm, -⟩ := hcarries
      · exact absurd hlive (Finset.notMem_empty _)
      · exact absurd hcall List.not_mem_nil
      · exact absurd hm List.not_mem_nil
    · cases hbound
  · refine ⟨fun name location hnames => ?_, fun _ _ => trivial⟩
    cases hc
    cases hnames

/-- Two instances with one name: the stop of the first one takes the binding of the second
one out of the registry. -/
theorem stop_frees_other :
    ∃ c c', run Naming.step (.start supervisors : Naming Nat Nat)
        [.system 0 (.spawn { name := some "cache" } false),
          .system 1 (.spawn { name := some "cache" } false)] = some c ∧
      c.registry.lookup "cache" = some ⟨1, 0⟩ ∧
      c.step (.system 0 (.stop 0 (some "cache"))) = some c' ∧
      c.frees (.system 0 (.stop 0 (some "cache"))) = some ⟨0, 0⟩ ∧
      c'.registry.lookup "cache" = none ∧ 0 ∈ (c'.systems 1).node.actors ∧
      ¬ c.FreesOwn (.system 0 (.stop 0 (some "cache"))) := by
  have hrun : ∃ c c', run Naming.step (.start supervisors : Naming Nat Nat)
        [.system 0 (.spawn { name := some "cache" } false),
          .system 1 (.spawn { name := some "cache" } false)] = some c ∧
      c.registry.lookup "cache" = some ⟨1, 0⟩ ∧
      c.step (.system 0 (.stop 0 (some "cache"))) = some c' ∧
      c.frees (.system 0 (.stop 0 (some "cache"))) = some ⟨0, 0⟩ ∧
      c'.registry.lookup "cache" = none ∧ 0 ∈ (c'.systems 1).node.actors :=
    ⟨_, _, rfl, rfl, rfl, rfl, rfl, by decide⟩
  obtain ⟨c, c', hrun, hbound, hst, hfrees, hlost, hlive⟩ := hrun
  refine ⟨c, c', hrun, hbound, hst, hfrees, hlost, hlive, fun hown => ?_⟩
  have hstopped := hown c' hst "cache" _ hbound hlost
  rw [hfrees] at hstopped
  cases hstopped

end Libeam.Proofs.OwnNames
