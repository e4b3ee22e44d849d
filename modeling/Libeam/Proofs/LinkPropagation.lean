import Mathlib.Algebra.GroupWithZero.Nat
import Mathlib.Logic.Relation
import Mathlib.Data.Prod.Lex
import Libeam.Proofs.Settling
import Libeam.Proofs.StopRounds
import Libeam.Proofs.SystemSound
/-!
# A crash goes along links

A root actor without children crashes, under a supervisor that stops what crashes.
The crash is passed on along the links of every actor that it stops, which are cut on
the way.  What is cut does not come back, so that this ends, and what is stopped in
the end is what the links reach.
-/

namespace Libeam.Proofs.LinkPropagation

open Libeam.System (ActorId Supervisor SupervisionStrategy)
open Monitoring Supervision Lib Lib.Transition LinkTables BondsAgree SystemSteps SystemSound
open StopRounds Settling
open Relation (ReflTransGen)

variable {N V : Type} {callbacks : Callbacks N} {stringify : List V → String}
  {s s' s₀ : ActorSystem N V} {r : ActorRef N} {a : ActorId}

/-! ## Reachability -/

/-- The link is between these two actors. -/
def Joins (linkRef : LinkRef) (x y : ActorId) : Prop :=
  linkRef.actor1Id = x ∧ linkRef.actor2Id = y ∨ linkRef.actor2Id = x ∧ linkRef.actor1Id = y

/-- The second actor is linked to the first and does not trap exits. -/
def Pulls (s : ActorSystem N V) (x y : ActorId) : Prop :=
  (∃ l e, s.links l = some e ∧ Joins e.linkRef x y) ∧ y ∈ s.actors ∧ s.trapExit y = false

/-- What the links reach through actors that do not trap exits. -/
def Reached (s : ActorSystem N V) : ActorId → ActorId → Prop := ReflTransGen (Pulls s)

theorem Joins.ends {linkRef : LinkRef} {x y : ActorId} (h : Joins linkRef x y) :
    Ends linkRef x ∧ Ends linkRef y := by
  rcases h with ⟨h₁, h₂⟩ | ⟨h₂, h₁⟩
  · exact ⟨.inl h₁, .inr h₂⟩
  · exact ⟨.inr h₂, .inl h₁⟩

/-- An end of a link is one of its two. -/
theorem Joins.eq_of_ends {linkRef : LinkRef} {x y z : ActorId} (h : Joins linkRef x y)
    (hz : Ends linkRef z) : z = x ∨ z = y := by
  rcases h with ⟨rfl, rfl⟩ | ⟨rfl, rfl⟩
  · exact hz.imp Eq.symm Eq.symm
  · exact (hz.imp Eq.symm Eq.symm).symm

theorem Reached.alive {x : ActorId} (h : Reached s a x) (ha : a ∈ s.actors)
    (htrap : s.trapExit a = false) : x ∈ s.actors ∧ s.trapExit x = false := by
  cases Relation.ReflTransGen.cases_tail h with
  | inl heq => exact heq ▸ ⟨ha, htrap⟩
  | inr hlast =>
      obtain ⟨_, -, hpull⟩ := hlast
      exact hpull.2

/-- No link has the actor at one of its ends. -/
def Free (s : ActorSystem N V) (x : ActorId) : Prop :=
  ∀ l e, s.links l = some e → ¬ Ends e.linkRef x

/-- A root actor of this node without children. -/
structure Root (s : ActorSystem N V) (x : ActorId) : Prop where
  parent : s.toTables.parentOf x = none
  children : (s.context x).children = []
  here : x ∉ s.remoteParents

/-- Callbacks neither throw nor begin anything. -/
structure Quiet (callbacks : Callbacks N) : Prop where
  cancels : ∀ id message, callbacks.cancels id message = []
  throws : ∀ id message, callbacks.throws id message = false

/-! ## The stages of a call -/

/-- The call is about to stop the actor, whose links have been cut. -/
inductive Stopping (r : ActorRef N) : List (Task N V) → Prop
  | stopFor (exhausted : Bool) : Stopping r [.stopFor r exhausted]
  | stop : Stopping r [.tree (.stop r)]
  | leaving (rest : List RefId) : Stopping r [.linked r .normal rest, .finish r]
  | finish : Stopping r [.finish r]
  | unregistering : Stopping r [.tree (.unregistering r)]
  | terminating : Stopping r [.tree (.terminating r)]

/-- The stages of the crash of an actor. -/
inductive Stage (s : ActorSystem N V) (r : ActorRef N) : List (Task N V) → Prop
  | crashed (error : String) : Stage s r [.crash r error]
  | telling {reason : TerminationReason} {rest : List RefId} (exhausted : Bool)
      (habnormal : reason.abnormal = true)
      (hrest : ∀ l e, s.links l = some e → Ends e.linkRef r.id → l ∈ rest) :
      Stage s r [.linked r reason rest, .stopFor r exhausted]
  | stopping {call : List (Task N V)} (hcall : Stopping r call) (hfree : Free s r.id) :
      Stage s r call

theorem Free.mono (h : Free s a) (hlinks : ∀ l e, s'.links l = some e → s.links l = some e) :
    Free s' a := fun l e he => h l e (hlinks l e he)

theorem Stage.mono {call : List (Task N V)} (h : Stage s r call)
    (hlinks : ∀ l e, s'.links l = some e → s.links l = some e) : Stage s' r call := by
  cases h with
  | crashed error => exact .crashed error
  | telling exhausted habnormal hrest =>
      exact .telling exhausted habnormal fun l e he => hrest l e (hlinks l e he)
  | stopping hcall hfree => exact .stopping hcall (hfree.mono hlinks)

/-- The actor that a call of this kind is about. -/
def subject : List (Task N V) → Option ActorId
  | .crash r _ :: _ | .linked r _ _ :: _ | .stopFor r _ :: _ | .finish r :: _ => some r.id
  | .tree (.stop r) :: _ | .tree (.unregistering r) :: _ | .tree (.terminating r) :: _ =>
      some r.id
  | _ => none

theorem Stage.subject {call : List (Task N V)} (h : Stage s r call) :
    subject call = some r.id := by
  cases h with
  | crashed | telling => rfl
  | stopping hcall hfree => cases hcall <;> rfl

/-- How far the call still has to go. -/
def phase : List (Task N V) → Nat
  | .crash _ _ :: _ => 8
  | .linked _ reason _ :: _ => if reason.abnormal then 7 else 4
  | .stopFor _ _ :: _ => 6
  | .tree (.stop _) :: _ => 5
  | .finish _ :: _ => 3
  | .tree (.unregistering _) :: _ => 2
  | _ => 1

/-- The links that the loop of the call has still to go through. -/
def remaining : List (Task N V) → Nat
  | .linked _ _ rest :: _ => rest.length
  | _ => 0

/-! ## What one step of a call does -/

/-- Actors, links and exits are as before. -/
structure Same (s s' : ActorSystem N V) : Prop where
  actors : s'.actors = s.actors
  trapExit : s'.trapExit = s.trapExit
  strategy : s'.supervisor.strategy = s.supervisor.strategy
  roots : ∀ x, Root s x → Root s' x

/-- What becomes of a call, and the calls that take its place. -/
inductive Moves (s : ActorSystem N V) (r : ActorRef N) :
    List (Task N V) → ActorSystem N V → List (List (Task N V)) → Prop
  | on {call next : List (Task N V)} {s' : ActorSystem N V} (hsame : Same s s')
      (hlinks : s'.links = s.links) (hexits : exits s'.events = exits s.events)
      (hterminated : s'.terminated = s.terminated ∧ next ≠ [.tree (.terminating r)] ∨
        s'.terminated = s.terminated ++ [r.id])
      (hnext : Stage s' r next)
      (hless : phase next < phase call ∨
        phase next = phase call ∧ remaining next < remaining call) :
      Moves s r call s' [next]
  | cuts {call next : List (Task N V)} {s' : ActorSystem N V} {e : LinkEntry N}
      {other : ActorRef N} {error : String} (he : s.links e.linkRef.id = some e)
      (hends : Joins e.linkRef r.id other.id) (hsame : Same s s')
      (hlinks : ∀ v, s'.links v = if v = e.linkRef.id then none else s.links v)
      (hexits : exits s'.events = exits s.events ++
        if Traps s.actors s.toRelations other.id then [(other.id, some e.linkRef)] else [])
      (hterminated : s'.terminated = s.terminated) (hnext : Stage s' r next)
      (hnot : next ≠ [.tree (.terminating r)]) :
      Moves s r call s' ([next] ++
        if other.id ∈ s.actors ∧ s.trapExit other.id = false then [[.crash other error]] else [])
  | ends {call : List (Task N V)} (hgone : r.id ∉ s.actors) : Moves s r call s []
  | removes (hfree : Free s r.id) : Moves s r [.tree (.terminating r)] (s.remove r.id) []

theorem Same.refl (s : ActorSystem N V) : Same s s := ⟨rfl, rfl, rfl, fun _ h => h⟩

theorem Same.of_eq (htables : s'.toTables = s.toTables) (htrap : s'.trapExit = s.trapExit)
    (hstrategy : s'.supervisor.strategy = s.supervisor.strategy)
    (hremote : s'.remoteParents = s.remoteParents) : Same s s' := by
  refine ⟨by rw [htables], htrap, hstrategy, fun x hx => ?_⟩
  obtain ⟨hparent, hchildren, hhere⟩ := hx
  exact ⟨htables ▸ hparent, by rw [htables]; exact hchildren, hremote ▸ hhere⟩

theorem Same.trans {s'' : ActorSystem N V} (h : Same s s') (h' : Same s' s'') : Same s s'' :=
  ⟨h'.actors.trans h.actors, h'.trapExit.trans h.trapExit, h'.strategy.trans h.strategy,
    fun x hx => h'.roots x (h.roots x hx)⟩

/-- When no watcher throws, the links are told next. -/
theorem announce_quiet (hquiet : Quiet callbacks) (h : Agree s.actors s.toRelations)
    (r : ActorRef N) (reason : TerminationReason) (next : Task N V) :
    ∃ relations, WatchRound r.id s.toRelations relations ∧
      s.announce callbacks r reason next = { s with toRelations := relations }.proceed
        [.linked r reason (relations.linkedWith.get r.id), next] := by
  refine ⟨_, round_notifyWatchers hquiet.cancels h.watches r reason, ?_⟩
  have hdone : (s.toRelations.notifyWatchers s.actors callbacks r reason).2 = false := by
    rw [Bool.eq_false_iff, ne_eq, notifyWatchers_threw hquiet.cancels h.watches]
    rintro ⟨w, e, -, -, -, hthrows⟩
    exact absurd (hthrows.symm.trans (hquiet.throws _ _)) nofun
  unfold ActorSystem.announce
  dsimp only
  rw [if_neg (by simp [hdone])]

theorem exits_watchRound {r' : Relations N} (h : WatchRound a s.toRelations r') :
    exits r'.events = exits s.events := by
  obtain ⟨said, hsaid, hnone⟩ := h.events
  rw [hsaid, exits_append, hnone, List.append_nil]

/-- The loop over the links that the index has goes through all links of the actor. -/
theorem telling_of_index {relations : Relations N} (h : LinksAgree s.actors s.toRelations)
    (hkept : WatchTables.LinksKept s.toRelations relations) (l : RefId) (e : LinkEntry N)
    (he : relations.links l = some e) (hends : Ends e.linkRef r.id) :
    l ∈ relations.linkedWith.get r.id := by
  rw [hkept.linkedWith, h.index]
  exact .inl ⟨e, hkept.links ▸ he, hends⟩

/-! ## The step of each stage -/

/-- A crash under the strategy Stop is announced. -/
theorem handleCrash_root (callbacks : Callbacks N) (stringify : List V → String)
    (hstop : s.supervisor.strategy = .Stop) (hroot : Root s r.id)
    (error : String) (now : Nat) :
    ∃ supervisor reason exhausted, supervisor.strategy = SupervisionStrategy.Stop ∧
      TerminationReason.abnormal reason = true ∧
      s.handleCrash callbacks stringify r error now =
        { s with supervisor := supervisor }.announce callbacks r reason
          (.stopFor r exhausted) := by
  have hroots : s.handleCrash callbacks stringify r error now =
      s.handleRootCrash callbacks r error now := by
    unfold ActorSystem.handleCrash
    split
    next parentRef hmetadata =>
      have hparent := hroot.parent
      unfold Tables.parentOf at hparent
      rw [hmetadata] at hparent
      cases hparent
    · exact if_neg hroot.here
  rw [hroots]
  unfold ActorSystem.handleRootCrash
  dsimp only
  split_ifs
  · refine ⟨_, .killed, true, ?_, rfl, rfl⟩
    exact hstop
  · rw [hstop]
    refine ⟨_, .error error, false, ?_, rfl, rfl⟩
    rfl

variable [DecidableEq N]

omit [DecidableEq N] in
theorem moves_crash (hsound : SoundSystem s) (hquiet : Quiet callbacks)
    (hstop : s.supervisor.strategy = .Stop) (hroot : Root s r.id) (error : String) (now : Nat) :
    let p := s.handleCrash callbacks stringify r error now
    Moves s r [.crash r error] p.system (following [] p) := by
  obtain ⟨supervisor, reason, exhausted, hstrategy, habnormal, heq⟩ :=
    handleCrash_root callbacks stringify hstop hroot error now
  have hagree : Agree s.actors s.toRelations := hsound.bonds.agree
  have hquiets := announce_quiet (s := { s with supervisor := supervisor }) hquiet hagree r reason
    (.stopFor r exhausted)
  obtain ⟨relations, hround, hannounce⟩ := hquiets
  dsimp only
  rw [heq, hannounce]
  refine .on (.of_eq rfl hround.kept.trapExit (hstrategy.trans hstop.symm) rfl)
    hround.kept.links (exits_watchRound hround) (.inl ⟨rfl, nofun⟩) ?_ (.inl ?_)
  · exact .telling exhausted habnormal (telling_of_index hagree.links hround.kept)
  · change (if reason.abnormal = true then 7 else 4) < 8
    rw [if_pos habnormal]
    decide

/-- The actor leaves, and then its links are told, of which it has none. -/
theorem moves_leave (hsound : SoundSystem s) (hquiet : Quiet callbacks) (hroot : Root s r.id)
    (hfree : Free s r.id) :
    let p := s.leave callbacks r
    Moves s r [.tree (.stop r)] p.system (following [] p) := by
  have hagree : Agree s.actors s.toRelations := hsound.bonds.agree
  have hunwatch := round_unwatchAll hagree.watches r.id
  have hkeeps := hagree.prunes (WatchTables.prunes_unwatchAll hagree.watches r.id)
  have hdetach : s.toTables.detach r =
      { s.toTables with detached := insert r.id s.detached } := by
    unfold Tables.detach
    rw [hroot.parent]
  have hactors : (s.toTables.detach r).actors = s.actors := by rw [hdetach]
  have hcontext : (s.toTables.detach r).context = s.context := by rw [hdetach]
  have hparents : (s.toTables.detach r).parentOf = s.toTables.parentOf := by
    rw [hdetach]
    rfl
  have hagree' : Agree (s.toTables.detach r).actors
      (s.toRelations.unwatchAll s.actors r.id) := by
    rw [hactors]
    exact hkeeps.agree
  obtain ⟨relations, hround, hannounce⟩ := announce_quiet (s := { s with
    toTables := s.toTables.detach r
    toRelations := s.toRelations.unwatchAll s.actors r.id }) hquiet hagree' r .normal (.finish r)
  have hboth : WatchRound r.id s.toRelations relations := hunwatch.trans hround
  dsimp only
  rw [show s.leave callbacks r = _ from hannounce]
  refine .on ⟨hactors, hboth.kept.trapExit, rfl, fun x hx => ?_⟩ hboth.kept.links
    (exits_watchRound hboth) (.inl ⟨rfl, nofun⟩) (.stopping (.leaving _) ?_) (.inl ?_)
  · exact ⟨(congrFun hparents x).trans hx.parent,
      (congrArg ActorContext.children (congrFun hcontext x)).trans hx.children, hx.here⟩
  · exact fun l e he => hfree l e (hboth.kept.links ▸ he)
  · change 4 < 5
    decide

omit [DecidableEq N] in
/-- The next link of a loop is told. -/
theorem moves_tellNext (hsound : SoundSystem s) (hquiet : Quiet callbacks)
    {reason : TerminationReason} {l : RefId} {rest : List RefId} {outer : List (Task N V)}
    (hmem : .linked r reason (l :: rest) :: outer ∈ s.calls)
    (hstage : Stage s r (.linked r reason (l :: rest) :: outer)) :
    let p := s.tellNext callbacks r reason (l :: rest)
    p.threw = false ∧
      Moves s r (.linked r reason (l :: rest) :: outer) p.system (following outer p) := by
  have hagree : Agree s.actors s.toRelations := hsound.bonds.agree
  unfold ActorSystem.tellNext
  dsimp only
  cases hentry : s.links l with
  | none =>
      obtain ⟨hround, hlinks, hevents, hthrew, hcrash⟩ := tellLinked_gone s.actors callbacks
        r.id r reason hentry
      rw [hthrew, if_neg nofun, hcrash]
      refine ⟨rfl, .on (.of_eq rfl hround.trapExit rfl rfl) hlinks (by rw [hevents])
        (.inl ⟨rfl, nofun⟩) ?_ (.inr ⟨rfl, Nat.lt_succ_self _⟩)⟩
      cases hstage with
      | telling exhausted habnormal hrest =>
          refine .telling exhausted habnormal fun v e he hends => ?_
          have hold : s.links v = some e := hround.links v e he
          refine (List.mem_cons.1 (hrest v e hold hends)).resolve_left ?_
          rintro rfl
          exact absurd (hentry.symm.trans hold) nofun
      | stopping hcall hfree =>
          cases hcall
          exact .stopping (.leaving rest) (hfree.mono hround.links)
  | some e =>
      have hid := hagree.links.id_of_links hentry
      obtain ⟨-, -, h₁, h₂⟩ := hagree.links.entry l e hentry
      have hends : Ends e.linkRef r.id := by
        have htask : ∀ v ∈ l :: rest, s.Concerns r.id v :=
          hsound.tasks _ hmem (.linked r reason (l :: rest)) (by simp)
        obtain ⟨ref, href, hconcerns⟩ := htask l (by simp)
        have hmade := (hagree.links.entry l e hentry).1
        rw [show s.linkRefs l = some ref from href, Option.some.injEq] at hmade
        rw [← hmade]
        exact hconcerns.imp (fun h => h) And.right
      have hcut := cutsLink_tellLinked hquiet.cancels hagree r reason hentry
      have hthrew : (s.toRelations.tellLinked s.actors callbacks r reason l).threw = false := by
        rw [Bool.eq_false_iff, ne_eq, hcut.threw]
        exact fun hboth => absurd (hboth.2.symm.trans (hquiet.throws _ _)) nofun
      obtain ⟨error, hcrash⟩ := hcut.crash
      have hjoins : Joins e.linkRef r.id (Relations.otherEnd e r.id).id :=
        otherEnd_ends h₁ h₂ hends
      cases hstage with
      | telling exhausted habnormal hrest =>
          subst hid
          have hexits : exits (s.toRelations.tellLinked s.actors callbacks r reason
              e.linkRef.id).relations.events = exits s.events ++
                if Traps s.actors s.toRelations (Relations.otherEnd e r.id).id then
                  [((Relations.otherEnd e r.id).id, some e.linkRef)]
                else [] := by
            rw [hcut.events, exits_append]
            split_ifs <;> rfl
          have hnext : Stage { s with
              toRelations := (s.toRelations.tellLinked s.actors callbacks r reason
                e.linkRef.id).relations } r
              [.linked r reason rest, .stopFor r exhausted] := by
            refine .telling exhausted habnormal fun v e' he' hends' => ?_
            have hleft := (hcut.links v).symm.trans he'
            split_ifs at hleft with hv
            exact (List.mem_cons.1 (hrest v e' hleft hends')).resolve_left hv
          have hcuts : Moves s r
              [.linked r reason (e.linkRef.id :: rest), .stopFor r exhausted]
              { s with
                toRelations := (s.toRelations.tellLinked s.actors callbacks r reason
                  e.linkRef.id).relations }
              ([[.linked r reason rest, .stopFor r exhausted]] ++
                if (Relations.otherEnd e r.id).id ∈ s.actors ∧
                    s.trapExit (Relations.otherEnd e r.id).id = false then
                  [[.crash (Relations.otherEnd e r.id) error]]
                else []) :=
            .cuts hentry hjoins (.of_eq rfl hcut.trapExit rfl rfl) hcut.links hexits rfl hnext
              nofun
          have hcalls : ∀ told : Option (ActorRef N × String), told =
              (if (Relations.otherEnd e r.id).id ∈ s.actors ∧
                  s.trapExit (Relations.otherEnd e r.id).id = false ∧ reason.abnormal = true then
                some (Relations.otherEnd e r.id, error) else none) →
              (told.toList.map fun crash => [Task.crash (V := V) crash.1 crash.2]) =
                if (Relations.otherEnd e r.id).id ∈ s.actors ∧
                    s.trapExit (Relations.otherEnd e r.id).id = false then
                  [[.crash (Relations.otherEnd e r.id) error]]
                else [] := by
            rintro _ rfl
            simp only [habnormal, and_true]
            split_ifs <;> rfl
          rw [hthrew, if_neg nofun, hcalls _ hcrash]
          exact ⟨rfl, hcuts⟩
      | stopping hcall hfree => exact absurd hends (hfree l e hentry)

/-- A call of this kind goes on in one of the ways above. -/
theorem moves_resumeTask (hsound : SoundSystem s) (hquiet : Quiet callbacks)
    (hstop : s.supervisor.strategy = .Stop) (hroot : Root s r.id) {task : Task N V}
    {outer : List (Task N V)} (hmem : task :: outer ∈ s.calls)
    (hstage : Stage s r (task :: outer)) (now : Nat) :
    let p := s.resumeTask callbacks stringify .success now task
    Moves s r (task :: outer) p.system (following outer p) := by
  intro p
  have hgoes : ∀ {call next : List (Task N V)} {s' : ActorSystem N V},
      Stopping r next → Free s r.id → Same s s' → s'.links = s.links → s'.events = s.events →
      (s'.terminated = s.terminated ∧ next ≠ [.tree (.terminating r)] ∨
        s'.terminated = s.terminated ++ [r.id]) → phase next < phase call →
      Moves s r call s' [next] := fun hnext hfree hsame hlinks hevents hterminated hless =>
    .on hsame hlinks (by rw [hevents]) hterminated
      (.stopping hnext (hfree.mono fun l e he => hlinks ▸ he)) (.inl hless)
  cases hstage with
  | crashed error => exact moves_crash hsound hquiet hstop hroot error now
  | @telling reason rest exhausted habnormal hrest =>
      cases rest with
      | nil =>
          have hfree : Free s r.id := fun l e he hends =>
            absurd (hrest l e he hends) List.not_mem_nil
          refine hgoes (.stopFor exhausted) hfree (.refl s) rfl rfl (.inl ⟨rfl, nofun⟩) ?_
          change 6 < if reason.abnormal = true then 7 else 4
          rw [if_pos habnormal]
          decide
      | cons l rest =>
          exact (moves_tellNext hsound hquiet hmem (.telling exhausted habnormal hrest)).2
  | stopping hcall hfree =>
      cases hcall with
      | stopFor exhausted =>
          refine hgoes .stop hfree (.of_eq rfl rfl ?_ rfl) rfl rfl (.inl ⟨rfl, nofun⟩)
            (show 5 < 6 by decide)
          cases exhausted <;> rfl
      | stop =>
          have hp : p = if r.id ∈ s.actors then s.stopChildren callbacks r
              (s.context r.id).children else s.proceed [] := rfl
          rw [hroot.children] at hp
          by_cases hr : r.id ∈ s.actors
          · rw [if_pos hr] at hp
            rw [hp]
            exact moves_leave hsound hquiet hroot hfree
          · rw [if_neg hr] at hp
            rw [hp]
            exact .ends hr
      | leaving rest =>
          cases rest with
          | nil =>
              exact hgoes .finish hfree (.refl s) rfl rfl (.inl ⟨rfl, nofun⟩)
                (show 3 < 4 by decide)
          | cons l rest =>
              exact (moves_tellNext hsound hquiet hmem (.stopping (.leaving _) hfree)).2
      | finish =>
          have hp : p = s.finish r := rfl
          unfold ActorSystem.finish at hp
          split_ifs at hp
          · rw [hp]
            exact hgoes .unregistering hfree (.refl s) rfl rfl (.inl ⟨rfl, nofun⟩)
              (show 2 < 3 by decide)
          · rw [hp]
            exact hgoes .terminating hfree (.of_eq rfl rfl rfl rfl) rfl rfl (.inr rfl)
              (show 1 < 3 by decide)
      | unregistering =>
          exact hgoes .terminating hfree (.of_eq rfl rfl rfl rfl) rfl rfl (.inr rfl)
            (show 1 < 2 by decide)
      | terminating => exact .removes hfree

/-! ## The invariant -/

/-- The actor is gone, or a call is about to stop it. -/
def Doomed (s : ActorSystem N V) (x : ActorId) : Prop :=
  x ∉ s.actors ∨ ∃ call ∈ s.calls, subject call = some x

/-- How far a crash has gone that began in another state. -/
structure Spreads (s₀ : ActorSystem N V) (a : ActorId) (s : ActorSystem N V) : Prop where
  sound : SoundSystem s
  strategy : s.supervisor.strategy = .Stop
  trapExit : s.trapExit = s₀.trapExit
  roots : ∀ x, Reached s₀ a x → Root s x
  calls : ∀ call ∈ s.calls, ∃ r, Reached s₀ a r.id ∧ Stage s r call
  actors : s.actors ⊆ s₀.actors
  gone : ∀ x ∈ s₀.actors, x ∉ s.actors → Reached s₀ a x ∧ Free s x
  links : ∀ l e, s.links l = some e → s₀.links l = some e
  /-- A link is cut when an actor at one of its ends is announced. -/
  cut : ∀ l e, s₀.links l = some e → s.links l = none →
    (∃ x, Reached s₀ a x ∧ Ends e.linkRef x) ∧
      ∀ x ∈ s₀.actors, Ends e.linkRef x → s₀.trapExit x = false → Doomed s x
  exits : ∃ told : List (ActorId × LinkRef),
    exits s.events = exits s₀.events ++ told.map (fun p => (p.1, some p.2)) ∧ told.Nodup ∧
      ∀ z ref, (z, ref) ∈ told ↔ Traps s₀.actors s₀.toRelations z ∧ Ends ref z ∧
        ∃ e, s₀.links ref.id = some e ∧ e.linkRef = ref ∧ s.links ref.id = none
  terminated : ∃ done, s.terminated = s₀.terminated ++ done ∧ (∀ x ∈ done, Reached s₀ a x) ∧
    (∀ x ∈ s₀.actors, x ∉ s.actors → x ∈ done) ∧
    ∀ r : ActorRef N, [.tree (.terminating r)] ∈ s.calls → r.id ∈ done
  start : Doomed s a

namespace Spreads

variable {t : ActorSystem N V} {call : List (Task N V)} {others new : List (List (Task N V))}

omit [DecidableEq N] in
/-- Doom stays when a call goes on. -/
theorem doomed_next (hcalls : s.calls.Perm (call :: others))
    (hcalls' : t.calls.Perm (new ++ others)) (hactors : t.actors ⊆ s.actors)
    (hsubject : ∀ x, subject call = some x → Doomed t x) {x : ActorId} (h : Doomed s x) :
    Doomed t x := by
  rcases h with hgone | ⟨c, hc, hx⟩
  · exact .inl fun hmem => hgone (hactors hmem)
  · rcases List.mem_cons.1 (hcalls.subset hc) with rfl | hother
    · exact hsubject x hx
    · exact .inr ⟨c, hcalls'.symm.subset (List.mem_append_right _ hother), hx⟩

omit [DecidableEq N] in
theorem calls_next (h : Spreads s₀ a s) (hcalls : s.calls.Perm (call :: others))
    (hcalls' : t.calls.Perm (new ++ others))
    (hlinks : ∀ l e, t.links l = some e → s.links l = some e)
    (hnew : ∀ c ∈ new, ∃ r, Reached s₀ a r.id ∧ Stage t r c) :
    ∀ c ∈ t.calls, ∃ r, Reached s₀ a r.id ∧ Stage t r c := by
  intro c hc
  rcases List.mem_append.1 (hcalls'.subset hc) with hc | hc
  · exact hnew c hc
  · obtain ⟨r, hr, hstage⟩ := h.calls c (hcalls.symm.subset (List.mem_cons_of_mem _ hc))
    exact ⟨r, hr, hstage.mono hlinks⟩

section
variable (hthere : a ∈ s₀.actors) (htrap : s₀.trapExit a = false)
include hthere htrap

omit [DecidableEq N] in
/-- An actor that traps exits stays. -/
theorem traps_iff (h : Spreads s₀ a s) (z : ActorId) :
    Traps s.actors s.toRelations z ↔ Traps s₀.actors s₀.toRelations z := by
  unfold Traps
  rw [h.trapExit]
  refine and_congr_left fun hz => ⟨fun hmem => h.actors hmem, fun hmem => ?_⟩
  by_contra hgone
  have hfalse := ((h.gone z hmem hgone).1.alive hthere htrap).2
  exact absurd (hz.symm.trans hfalse) nofun

end

omit [DecidableEq N] in
/-- A step that cuts no link and takes no instance out of the tables. -/
theorem on (h : Spreads s₀ a s) (hsound : SoundSystem t)
    (hcalls : s.calls.Perm (call :: others)) (hcalls' : t.calls.Perm (new ++ others))
    (hr : Reached s₀ a r.id) (hsubject : subject call = some r.id) {next : List (Task N V)}
    (hnew : new = [next]) (hsame : Same s t) (hlinks : t.links = s.links)
    (hexits : StopRounds.exits t.events = StopRounds.exits s.events)
    (hterminated : t.terminated = s.terminated ∧ next ≠ [.tree (.terminating r)] ∨
      t.terminated = s.terminated ++ [r.id])
    (hnext : Stage t r next) : Spreads s₀ a t := by
  subst hnew
  have hdoomed : ∀ x, Doomed s x → Doomed t x := fun x =>
    doomed_next hcalls hcalls' hsame.actors.subset fun x hx => by
      rw [hsubject, Option.some.injEq] at hx
      exact .inr ⟨next, hcalls'.symm.subset (by simp), hx ▸ hnext.subject⟩
  have hsub : ∀ l e, t.links l = some e → s.links l = some e := fun l e he => hlinks ▸ he
  refine ⟨hsound, hsame.strategy.trans h.strategy, hsame.trapExit.trans h.trapExit,
    fun x hx => hsame.roots x (h.roots x hx), h.calls_next hcalls hcalls' hsub ?_,
    hsame.actors ▸ h.actors, fun x hx hgone => ?_, hlinks ▸ h.links, fun l e he hnone => ?_,
    ?_, ?_, hdoomed a h.start⟩
  · intro c hc
    rw [List.mem_singleton.1 hc]
    exact ⟨r, hr, hnext⟩
  · obtain ⟨hreached, hfree⟩ := h.gone x hx (hsame.actors ▸ hgone)
    exact ⟨hreached, hfree.mono hsub⟩
  · obtain ⟨hend, hends⟩ := h.cut l e he (hlinks ▸ hnone)
    exact ⟨hend, fun x hx he' htrap => hdoomed x (hends x hx he' htrap)⟩
  · rw [hexits, hlinks]
    exact h.exits
  · obtain ⟨done, hdone, hreached, hgone, hawaited⟩ := h.terminated
    have hold : ∀ r' : ActorRef N, [.tree (.terminating r')] ∈ others → r'.id ∈ done :=
      fun r' hmem => hawaited r' (hcalls.symm.subset (List.mem_cons_of_mem _ hmem))
    rw [hsame.actors]
    rcases hterminated with ⟨hsame, hnot⟩ | hmore
    · refine ⟨done, hsame.trans hdone, hreached, hgone, fun r' hmem => ?_⟩
      rcases List.mem_append.1 (hcalls'.subset hmem) with hmem | hmem
      · have heq := List.mem_singleton.1 hmem
        rw [← heq] at hnext
        cases hnext with
        | stopping hcall _ => cases hcall; exact absurd heq.symm hnot
      · exact hold r' hmem
    · refine ⟨done ++ [r.id], by rw [hmore, hdone, List.append_assoc], fun x hx => ?_,
        fun x hx hx' => List.mem_append_left _ (hgone x hx hx'), fun r' hmem => ?_⟩
      · rcases List.mem_append.1 hx with hx | hx
        · exact hreached x hx
        · rw [List.mem_singleton.1 hx]
          exact hr
      · rcases List.mem_append.1 (hcalls'.subset hmem) with hmem | hmem
        · rw [← List.mem_singleton.1 hmem] at hnext
          have hid : some r'.id = some r.id := hnext.subject
          rw [Option.some.inj hid]
          exact List.mem_append_right _ (List.mem_singleton.2 rfl)
        · exact List.mem_append_left _ (hold r' hmem)

section
variable (hthere : a ∈ s₀.actors) (htrap : s₀.trapExit a = false)
include hthere htrap

omit [DecidableEq N] in
/-- A link is cut, and the actor at its other end crashes, gets an exit message or is
gone. -/
theorem cuts (h : Spreads s₀ a s) (hsound : SoundSystem t)
    (hcalls : s.calls.Perm (call :: others)) (hcalls' : t.calls.Perm (new ++ others))
    (hr : Reached s₀ a r.id) (hsubject : subject call = some r.id) {next : List (Task N V)}
    {e : LinkEntry N} {other : ActorRef N} {error : String}
    (hnew : new = [next] ++
      if other.id ∈ s.actors ∧ s.trapExit other.id = false then [[.crash other error]] else [])
    (he : s.links e.linkRef.id = some e) (hjoins : Joins e.linkRef r.id other.id)
    (hsame : Same s t)
    (hlinks : ∀ v, t.links v = if v = e.linkRef.id then none else s.links v)
    (hexits : StopRounds.exits t.events = StopRounds.exits s.events ++
      if Traps s.actors s.toRelations other.id then [(other.id, some e.linkRef)] else [])
    (hterminated : t.terminated = s.terminated) (hnext : Stage t r next)
    (hnot : next ≠ [.tree (.terminating r)]) : Spreads s₀ a t := by
  have hentry : s₀.links e.linkRef.id = some e := h.links _ e he
  have hrtrap := (hr.alive hthere htrap).2
  have hmem : ∀ c ∈ new, c ∈ t.calls := fun c hc =>
    hcalls'.symm.subset (List.mem_append_left _ hc)
  have hself : Doomed t r.id := .inr ⟨next, hmem next (by simp [hnew]), hnext.subject⟩
  have hdoomed : ∀ x, Doomed s x → Doomed t x := fun x =>
    doomed_next hcalls hcalls' hsame.actors.subset fun x hx => by
      rw [hsubject, Option.some.injEq] at hx
      exact hx ▸ hself
  have hsub : ∀ l e, t.links l = some e → s.links l = some e := fun l e' he' => by
    rw [hlinks] at he'
    split_ifs at he'
    exact he'
  have hpulled : other.id ∈ s.actors → s.trapExit other.id = false → Reached s₀ a other.id :=
    fun hmem hfalse => hr.tail ⟨⟨_, e, hentry, hjoins⟩, h.actors hmem, h.trapExit ▸ hfalse⟩
  refine ⟨hsound, hsame.strategy.trans h.strategy, hsame.trapExit.trans h.trapExit,
    fun x hx => hsame.roots x (h.roots x hx), h.calls_next hcalls hcalls' hsub ?_,
    hsame.actors ▸ h.actors, fun x hx hgone => ?_, fun l e' he' => h.links l e' (hsub l e' he'),
    fun l e' he' hnone => ?_, ?_, ?_, hdoomed a h.start⟩
  · intro c hc
    rw [hnew] at hc
    rcases List.mem_append.1 hc with hc | hc
    · rw [List.mem_singleton.1 hc]
      exact ⟨r, hr, hnext⟩
    · split_ifs at hc with hother
      · rw [List.mem_singleton.1 hc]
        exact ⟨other, hpulled hother.1 hother.2, .crashed error⟩
      · exact absurd hc List.not_mem_nil
  · obtain ⟨hreached, hfree⟩ := h.gone x hx (hsame.actors ▸ hgone)
    exact ⟨hreached, hfree.mono hsub⟩
  · by_cases hl : l = e.linkRef.id
    · subst hl
      obtain rfl := Option.some.inj (hentry.symm.trans he')
      refine ⟨⟨r.id, hr, hjoins.ends.1⟩, fun x hx hends hfalse => ?_⟩
      rcases hjoins.eq_of_ends hends with rfl | rfl
      · exact hself
      · by_cases hlive : other.id ∈ s.actors
        · refine .inr ⟨[.crash other error], hmem _ ?_, rfl⟩
          rw [hnew, if_pos ⟨hlive, h.trapExit ▸ hfalse⟩]
          simp
        · exact .inl (hsame.actors ▸ hlive)
    · rw [hlinks, if_neg hl] at hnone
      obtain ⟨hend, hends⟩ := h.cut l e' he' hnone
      exact ⟨hend, fun x hx hx' hfalse => hdoomed x (hends x hx hx' hfalse)⟩
  · obtain ⟨told, htold, hnodup, hiff⟩ := h.exits
    have htraps : Traps s.actors s.toRelations other.id ↔ Traps s₀.actors s₀.toRelations other.id :=
      h.traps_iff hthere htrap other.id
    -- the messages for this link, of which there is none yet
    have hfirst : ∀ z, (z, e.linkRef) ∉ told := fun z hz => by
      obtain ⟨-, -, e', he', -, hnone⟩ := (hiff z e.linkRef).1 hz
      exact absurd (he.symm.trans hnone) nofun
    have hthis : ∀ z, Traps s₀.actors s₀.toRelations z ∧ Ends e.linkRef z ↔
        z = other.id ∧ Traps s₀.actors s₀.toRelations other.id := by
      intro z
      constructor
      · rintro ⟨hz, hends⟩
        rcases hjoins.eq_of_ends hends with rfl | rfl
        · exact absurd (hz.2.symm.trans hrtrap) nofun
        · exact ⟨rfl, hz⟩
      · rintro ⟨rfl, hz⟩
        exact ⟨hz, hjoins.ends.2⟩
    have hothers : ∀ z ref, ref.id ≠ e.linkRef.id →
        ((z, ref) ∈ told ↔ Traps s₀.actors s₀.toRelations z ∧ Ends ref z ∧
          ∃ e, s₀.links ref.id = some e ∧ e.linkRef = ref ∧ t.links ref.id = none) := by
      intro z ref hne
      rw [hlinks, if_neg hne]
      exact hiff z ref
    have hown : ∀ z ref, ref.id = e.linkRef.id →
        ((Traps s₀.actors s₀.toRelations z ∧ Ends ref z ∧
          ∃ e, s₀.links ref.id = some e ∧ e.linkRef = ref ∧ t.links ref.id = none) ↔
          ref = e.linkRef ∧ z = other.id ∧ Traps s₀.actors s₀.toRelations other.id) := by
      intro z ref hid
      constructor
      · rintro ⟨hz, hends, e', he', rfl, -⟩
        rw [hid] at he'
        obtain rfl := Option.some.inj (hentry.symm.trans he')
        exact ⟨rfl, (hthis z).1 ⟨hz, hends⟩⟩
      · rintro ⟨rfl, hz⟩
        obtain ⟨hz, hends⟩ := (hthis z).2 hz
        exact ⟨hz, hends, e, hentry, rfl, by rw [hlinks, if_pos rfl]⟩
    by_cases hother : Traps s₀.actors s₀.toRelations other.id
    · refine ⟨told ++ [(other.id, e.linkRef)], ?_, ?_, fun z ref => ?_⟩
      · rw [hexits, htold, if_pos (htraps.2 hother), List.map_append, List.append_assoc]
        rfl
      · exact hnodup.append (List.nodup_singleton _)
          fun p hp hp' => hfirst other.id (List.mem_singleton.1 hp' ▸ hp)
      · rw [List.mem_append, List.mem_singleton, Prod.mk.injEq]
        by_cases hid : ref.id = e.linkRef.id
        · rw [hown z ref hid]
          constructor
          · rintro (hmem | ⟨hz, href⟩)
            · obtain ⟨-, -, e', he', hlink, hnone⟩ := (hiff z ref).1 hmem
              rw [hid] at hnone
              exact absurd (he.symm.trans hnone) nofun
            · exact ⟨href, hz, hother⟩
          · exact fun hz => .inr ⟨hz.2.1, hz.1⟩
        · rw [← hothers z ref hid]
          exact or_iff_left fun hz => hid (by rw [hz.2])
    · refine ⟨told, ?_, hnodup, fun z ref => ?_⟩
      · rw [hexits, htold, if_neg (mt htraps.1 hother), List.append_nil]
      · by_cases hid : ref.id = e.linkRef.id
        · rw [hown z ref hid]
          refine iff_of_false (fun hmem => ?_) fun hz => hother hz.2.2
          obtain ⟨-, -, e', he', hlink, hnone⟩ := (hiff z ref).1 hmem
          rw [hid] at hnone
          exact absurd (he.symm.trans hnone) nofun
        · exact hothers z ref hid
  · obtain ⟨done, hdone, hreached, hgone, hawaited⟩ := h.terminated
    rw [hsame.actors]
    refine ⟨done, hterminated.trans hdone, hreached, hgone, fun r' hmem' => ?_⟩
    rcases List.mem_append.1 (hcalls'.subset hmem') with hmem' | hmem'
    · rw [hnew] at hmem'
      rcases List.mem_append.1 hmem' with hmem' | hmem'
      · have heq := List.mem_singleton.1 hmem'
        rw [← heq] at hnext
        cases hnext with
        | stopping hcall _ => cases hcall; exact absurd heq.symm hnot
      · split_ifs at hmem'
        · cases List.mem_singleton.1 hmem'
        · exact absurd hmem' List.not_mem_nil
    · exact hawaited r' (hcalls.symm.subset (List.mem_cons_of_mem _ hmem'))

end

omit [DecidableEq N] in
/-- A call ends, and its actor is gone. -/
theorem ends (h : Spreads s₀ a s) (hsound : SoundSystem t)
    (hcalls : s.calls.Perm (call :: others)) (hcalls' : t.calls.Perm ([] ++ others))
    (hr : Reached s₀ a r.id) (hstage : Stage s r call) (hgone : r.id ∉ t.actors)
    (hactors : ∀ x, x ∈ t.actors ↔ x ∈ s.actors ∧ x ≠ r.id ∨
      x ∈ s.actors ∧ call ≠ [.tree (.terminating r)])
    (hstrategy : t.supervisor.strategy = s.supervisor.strategy)
    (hroots : ∀ x, Root s x → Root t x) (hrelations : t.toRelations = s.toRelations)
    (hterminated : t.terminated = s.terminated) : Spreads s₀ a t := by
  have hsub : t.actors ⊆ s.actors := fun x hx => ((hactors x).1 hx).elim And.left And.left
  have hlinks : t.links = s.links := by rw [hrelations]
  have hfree : ∀ x, Free s x → Free t x := fun x hx => hx.mono fun l e he => hlinks ▸ he
  have hdoomed : ∀ x, Doomed s x → Doomed t x := fun x =>
    doomed_next hcalls hcalls' hsub fun x hx => by
      rw [hstage.subject, Option.some.injEq] at hx
      exact .inl (hx ▸ hgone)
  -- an instance that this step takes out of the tables is the one of the call
  have hleft : ∀ x, x ∈ s.actors → x ∉ t.actors → x = r.id ∧ call = [.tree (.terminating r)] := by
    intro x hx hx'
    rw [hactors] at hx'
    push Not at hx'
    exact ⟨hx'.1 hx, hx'.2 hx⟩
  refine ⟨hsound, hstrategy.trans h.strategy, by rw [hrelations]; exact h.trapExit,
    fun x hx => hroots x (h.roots x hx),
    h.calls_next hcalls hcalls' (fun l e he => hlinks ▸ he)
      fun c hc => absurd hc List.not_mem_nil,
    hsub.trans h.actors, fun x hx hx' => ?_, hlinks ▸ h.links, fun l e he hnone => ?_,
    by rw [hrelations]; exact h.exits, ?_, hdoomed a h.start⟩
  · by_cases hold : x ∈ s.actors
    · obtain ⟨rfl, rfl⟩ := hleft x hold hx'
      cases hstage with
      | stopping _ hfree' => exact ⟨hr, hfree _ hfree'⟩
    · obtain ⟨hreached, hfree'⟩ := h.gone x hx hold
      exact ⟨hreached, hfree x hfree'⟩
  · obtain ⟨hend, hends⟩ := h.cut l e he (hlinks ▸ hnone)
    exact ⟨hend, fun x hx hx' hfalse => hdoomed x (hends x hx hx' hfalse)⟩
  · obtain ⟨done, hdone, hreached, hold, hawaited⟩ := h.terminated
    refine ⟨done, hterminated.trans hdone, hreached, fun x hx hx' => ?_, fun r' hmem =>
      hawaited r' (hcalls.symm.subset (List.mem_cons_of_mem _ (hcalls'.subset hmem)))⟩
    by_cases hmem : x ∈ s.actors
    · obtain ⟨rfl, rfl⟩ := hleft x hmem hx'
      exact hawaited r (hcalls.symm.subset (by simp))
    · exact hold x hx hmem

section
variable (hthere : a ∈ s₀.actors) (htrap : s₀.trapExit a = false)
include hthere htrap

omit [DecidableEq N] in
/-- Whatever a call does, the invariant stays. -/
theorem moves (h : Spreads s₀ a s) {s' : ActorSystem N V} (hsound : SoundSystem t)
    (hcalls : s.calls.Perm (call :: others)) (hcalls' : t.calls.Perm (new ++ others))
    (hr : Reached s₀ a r.id) (hstage : Stage s r call) (hmoves : Moves s r call s' new)
    (ht : t = { s' with calls := t.calls }) : Spreads s₀ a t := by
  cases hmoves with
  | @on _ next s' hsame hlinks hexits hterminated hnext hless =>
      have hsame' : Same s' t := by rw [ht]; exact .of_eq rfl rfl rfl rfl
      refine h.on hsound hcalls hcalls' hr hstage.subject rfl (hsame.trans hsame')
        (by rw [ht]; exact hlinks) (by rw [ht]; exact hexits) (by rw [ht]; exact hterminated)
        (hnext.mono fun l e he => by rw [ht] at he; exact he)
  | @cuts _ next s' e other error he hjoins hsame hlinks hexits hterminated hnext hnot =>
      have hsame' : Same s' t := by rw [ht]; exact .of_eq rfl rfl rfl rfl
      refine h.cuts hthere htrap hsound hcalls hcalls' hr hstage.subject rfl he hjoins
        (hsame.trans hsame') (by rw [ht]; exact hlinks) (by rw [ht]; exact hexits)
        (by rw [ht]; exact hterminated)
        (hnext.mono fun l e he => by rw [ht] at he; exact he) hnot
  | ends hgone =>
      have hactors : t.actors = s.actors := by rw [ht]
      refine h.ends hsound hcalls hcalls' hr hstage (hactors ▸ hgone) (fun x => ?_)
        (by rw [ht]) (fun x hx => ?_) (by rw [ht]) (by rw [ht])
      · rw [hactors]
        constructor
        · exact fun hx => .inl ⟨hx, fun heq => hgone (heq ▸ hx)⟩
        · exact fun hx => hx.elim And.left And.left
      · rw [ht]
        exact ⟨hx.parent, hx.children, hx.here⟩
  | removes hfree =>
      have hactors : t.actors = s.actors.erase r.id := by rw [ht]; rfl
      refine h.ends hsound hcalls hcalls' hr hstage (by simp [hactors]) (fun x => ?_)
        (by rw [ht]; rfl) (fun x hx => ?_) (by rw [ht]; rfl) (by rw [ht]; rfl)
      · rw [hactors, Finset.mem_erase]
        simp only [ne_eq, not_true, and_false, or_false]
        exact and_comm
      · rw [ht]
        refine ⟨?_, hx.children, hx.here⟩
        change (Function.update s.actorMetadata r.id none x).bind _ = none
        by_cases hid : x = r.id
        · rw [hid, Function.update_self]
          rfl
        · rw [Function.update_of_ne hid]
          exact hx.parent

end

end Spreads

/-! ## The rank -/

/-- The links that are left, the phases of the calls, and the links that their loops
have still to go through. -/
def rank (s₀ s : ActorSystem N V) : Nat × Nat × Nat :=
  (((Finset.range s₀.nextRef).filter fun l => (s.links l).isSome).card,
    (s.calls.map phase).sum, (s.calls.map remaining).sum)

/-- The order of ranks. -/
def Lower : Nat × Nat × Nat → Nat × Nat × Nat → Prop := Prod.Lex (· < ·) (Prod.Lex (· < ·) (· < ·))

theorem lower_wf : WellFounded Lower :=
  WellFounded.prod_lex Nat.lt_wfRel.wf (WellFounded.prod_lex Nat.lt_wfRel.wf Nat.lt_wfRel.wf)

omit [DecidableEq N] in
theorem phase_pos {call : List (Task N V)} (h : Stage s r call) : 0 < phase call := by
  cases h with
  | crashed error => exact Nat.succ_pos 7
  | @telling reason rest exhausted habnormal hrest =>
      change 0 < if reason.abnormal = true then 7 else 4
      rw [if_pos habnormal]
      exact Nat.succ_pos 6
  | stopping hcall hfree => cases hcall <;> exact Nat.succ_pos _

omit [DecidableEq N] in
theorem rank_moves {t : ActorSystem N V} {call : List (Task N V)}
    {others new : List (List (Task N V))} (hlt : ∀ l e, s.links l = some e → l < s₀.nextRef)
    (hcalls : s.calls.Perm (call :: others))
    (hcalls' : t.calls.Perm (new ++ others)) (hstage : Stage s r call)
    (hmoves : Moves s r call s' new) (ht : t = { s' with calls := t.calls }) :
    Lower (rank s₀ t) (rank s₀ s) := by
  have hphase : (s.calls.map phase).sum = phase call + (others.map phase).sum :=
    (hcalls.map phase).sum_nat
  have hphase' : (t.calls.map phase).sum = (new.map phase).sum + (others.map phase).sum := by
    rw [(hcalls'.map phase).sum_nat, List.map_append, List.sum_append]
  have hremaining : (s.calls.map remaining).sum = remaining call + (others.map remaining).sum :=
    (hcalls.map remaining).sum_nat
  have hremaining' : (t.calls.map remaining).sum =
      (new.map remaining).sum + (others.map remaining).sum := by
    rw [(hcalls'.map remaining).sum_nat, List.map_append, List.sum_append]
  have hpos := phase_pos hstage
  -- a step that cuts no link
  have hsame : t.links = s.links →
      ((new.map phase).sum < phase call ∨
        (new.map phase).sum = phase call ∧ (new.map remaining).sum < remaining call) →
      Lower (rank s₀ t) (rank s₀ s) := by
    intro hlinks hless
    unfold rank
    rw [hlinks]
    refine Prod.Lex.right _ ?_
    rw [hphase, hphase', hremaining, hremaining']
    rcases hless with hless | ⟨heq, hless⟩
    · exact .left _ _ (by omega)
    · rw [heq]
      exact .right _ (by omega)
  cases hmoves with
  | on hsame' hlinks hexits hterminated hnext' hless =>
      exact hsame (by rw [ht]; exact hlinks) (by simpa using hless)
  | @cuts _ _ _ e _ _ he _ _ hlinks =>
      refine .left _ _ (Finset.card_lt_card ?_)
      have hlinks' : ∀ v, t.links v = if v = e.linkRef.id then none else s.links v := by
        rw [ht]
        exact hlinks
      refine ⟨fun l hl => ?_, fun hsub => ?_⟩
      · simp only [Finset.mem_filter, hlinks'] at hl ⊢
        split_ifs at hl with hid
        · cases hl.2
        · exact hl
      · have hmem := hsub (Finset.mem_filter.2 ⟨Finset.mem_range.2 (hlt _ e he),
          by rw [he]; rfl⟩)
        simp [hlinks'] at hmem
  | ends hgone => exact hsame (by rw [ht]) (.inl hpos)
  | removes hfree => exact hsame (by rw [ht]; rfl) (.inl hpos)

/-! ## The whole propagation -/

/-- What a crash of an actor comes to. -/
structure Propagated (s₀ : ActorSystem N V) (a : ActorId) (t : ActorSystem N V) : Prop where
  calls : t.calls = []
  /-- What the links reach has been stopped, and nothing else. -/
  actors : ∀ x, x ∈ t.actors ↔ x ∈ s₀.actors ∧ ¬ Reached s₀ a x
  terminated : ∃ done, t.terminated = s₀.terminated ++ done ∧ ∀ x, x ∈ done ↔ Reached s₀ a x
  survives : ∀ x ∈ s₀.actors, s₀.trapExit x = true → x ∈ t.actors
  /-- One exit message for each link between an actor that traps exits and one that has
  been stopped. -/
  exits : ∃ told : List (ActorId × LinkRef),
    exits t.events = exits s₀.events ++ told.map (fun p => (p.1, some p.2)) ∧ told.Nodup ∧
      ∀ z ref, (z, ref) ∈ told ↔ z ∈ s₀.actors ∧ s₀.trapExit z = true ∧
        ∃ l e, s₀.links l = some e ∧ e.linkRef = ref ∧ ∃ x, Reached s₀ a x ∧ Joins ref x z
  links : ∀ l e, t.links l = some e ↔
    s₀.links l = some e ∧ ∀ x, Reached s₀ a x → ¬ Ends e.linkRef x

section
omit [DecidableEq N]

theorem ends_joins {ref : LinkRef} {x z : ActorId} (hx : Ends ref x) (hz : Ends ref z)
    (hne : x ≠ z) : Joins ref x z := by
  rcases hx with hx | hx <;> rcases hz with hz | hz
  · exact absurd (hx.symm.trans hz) hne
  · exact .inl ⟨hx, hz⟩
  · exact .inr ⟨hx, hz⟩
  · exact absurd (hx.symm.trans hz) hne

/-- When no call is left, the propagation is complete. -/
theorem Spreads.propagated {t : ActorSystem N V} (h : Spreads s₀ a t)
    (hlinks : LinksAgree s₀.actors s₀.toRelations) (hthere : a ∈ s₀.actors)
    (htrap : s₀.trapExit a = false) (hdone : t.calls = []) : Propagated s₀ a t := by
  have hgone : ∀ x, Doomed t x → x ∉ t.actors := by
    rintro x (hgone | ⟨c, hc, -⟩)
    · exact hgone
    · rw [hdone] at hc
      exact absurd hc List.not_mem_nil
  have hreached : ∀ x, Reached s₀ a x → x ∉ t.actors := by
    intro x hx
    induction hx with
    | refl => exact hgone a h.start
    | @tail x y hx hpull ih =>
        obtain ⟨⟨l, e, he, hjoins⟩, hy, hfalse⟩ := hpull
        have hx' : Reached s₀ a x := hx
        have hfree := (h.gone x (hx'.alive hthere htrap).1 ih).2
        have hcut : t.links l = none := by
          by_contra hsome
          obtain ⟨e', he'⟩ := Option.ne_none_iff_exists'.1 hsome
          have heq := Option.some.inj ((h.links l e' he').symm.trans he)
          exact hfree l e' he' (heq ▸ hjoins.ends.1)
        exact hgone y ((h.cut l e he hcut).2 y hy hjoins.ends.2 hfalse)
  have hcut : ∀ l e, s₀.links l = some e →
      (t.links l = none ↔ ∃ x, Reached s₀ a x ∧ Ends e.linkRef x) := by
    intro l e he
    refine ⟨fun hnone => (h.cut l e he hnone).1, fun ⟨x, hx, hends⟩ => ?_⟩
    by_contra hsome
    obtain ⟨e', he'⟩ := Option.ne_none_iff_exists'.1 hsome
    have heq := Option.some.inj ((h.links l e' he').symm.trans he)
    exact (h.gone x (hx.alive hthere htrap).1 (hreached x hx)).2 l e' he' (heq ▸ hends)
  refine ⟨hdone, fun x => ⟨fun hx => ⟨h.actors hx, fun hr => hreached x hr hx⟩, ?_⟩, ?_,
    fun x hx hx' => ?_, ?_, fun l e => ⟨fun he => ?_, ?_⟩⟩
  · rintro ⟨hx, hnot⟩
    by_contra hgone'
    exact hnot (h.gone x hx hgone').1
  · obtain ⟨done, heq, hsub, hall, -⟩ := h.terminated
    exact ⟨done, heq, fun x => ⟨hsub x, fun hx =>
      hall x (hx.alive hthere htrap).1 (hreached x hx)⟩⟩
  · by_contra hgone'
    have hfalse := ((h.gone x hx hgone').1.alive hthere htrap).2
    exact absurd (hx'.symm.trans hfalse) nofun
  · obtain ⟨told, heq, hnodup, hiff⟩ := h.exits
    refine ⟨told, heq, hnodup, fun z ref => (hiff z ref).trans ?_⟩
    constructor
    · rintro ⟨⟨hz, htraps⟩, hends, e, he, rfl, hnone⟩
      obtain ⟨x, hx, hends'⟩ := (hcut _ e he).1 hnone
      have hne : x ≠ z := by
        rintro rfl
        exact absurd (htraps.symm.trans (hx.alive hthere htrap).2) nofun
      exact ⟨hz, htraps, _, e, he, rfl, x, hx, ends_joins hends' hends hne⟩
    · rintro ⟨hz, htraps, l, e, he, rfl, x, hx, hjoins⟩
      have hid := hlinks.id_of_links he
      rw [← hid] at he
      exact ⟨⟨hz, htraps⟩, hjoins.ends.2, e, he, rfl, (hcut _ e he).2 ⟨x, hx, hjoins.ends.1⟩⟩
  · have he₀ := h.links l e he
    refine ⟨he₀, fun x hx hends => ?_⟩
    exact absurd (he.symm.trans ((hcut l e he₀).2 ⟨x, hx, hends⟩)) nofun
  · rintro ⟨he, hnot⟩
    by_contra hother
    have hnone : t.links l = none := by
      by_contra hsome
      obtain ⟨e', he'⟩ := Option.ne_none_iff_exists'.1 hsome
      have heq := Option.some.inj ((h.links l e' he').symm.trans he)
      exact hother (heq ▸ he')
    obtain ⟨x, hx, hends⟩ := (hcut l e he).1 hnone
    exact hnot x hx hends

theorem failing_none (task : Task N V) : failing (fun _ => false) task = false := by
  unfold failing
  split <;> rfl

end

theorem Spreads.settles {t : ActorSystem N V} (hs₀ : LinksAgree s₀.actors s₀.toRelations)
    (hthere : a ∈ s₀.actors) (htrap : s₀.trapExit a = false) (hquiet : Quiet callbacks)
    (h : Spreads s₀ a s) (hst : Settles callbacks stringify (fun _ => false) s t) :
    Spreads s₀ a t ∧ Lower (rank s₀ t) (rank s₀ s) := by
  obtain ⟨index, task, outer, hcall, hgoes⟩ := hst
  rw [if_neg (by simp [failing_none])] at hgoes
  obtain ⟨now, hgoes⟩ := hgoes
  have hsound := h.sound.resumes hgoes
  have hmem : task :: outer ∈ s.calls := List.mem_of_getElem? hcall
  obtain ⟨r, hr, hstage⟩ := h.calls _ hmem
  have hmoves : Moves s r (task :: outer)
      (s.resumeTask callbacks stringify .success now task).system
      (following outer (s.resumeTask callbacks stringify .success now task)) :=
    moves_resumeTask h.sound hquiet h.strategy (h.roots r.id hr) hmem hstage now
  have hdoes : Does callbacks s .success task
      (s.resumeTask callbacks stringify .success now task) := resumeTask_cases s .success now task
  obtain ⟨others, hcalls, hcalls'⟩ := calls_carryOn hcall (calls_does hdoes)
  unfold ActorSystem.resumes at hgoes
  rw [hcall] at hgoes
  cases hgoes
  have heq := carryOn_eq index outer (s.resumeTask callbacks stringify .success now task)
  exact ⟨h.moves hthere htrap hsound hcalls hcalls' hr hstage hmoves heq,
    rank_moves (fun l e he => hs₀.lt_of_links (h.links l e he)) hcalls hcalls' hstage hmoves heq⟩

/-- However the calls are interleaved, the crash of an actor that does not trap exits stops
what the links reach from it, through actors that do not trap exits. -/
theorem links_propagate {id : N} {childSupervision : ActorId → ChildSupervisionOptions}
    {supervisor : Supervisor} {as : List (SystemAction N V)}
    (hrun : run (ActorSystem.step callbacks stringify) (.init id childSupervision supervisor) as =
      some s) (hidle : s.calls = []) (hstop : s.supervisor.strategy = .Stop)
    (hquiet : Quiet callbacks) {actorRef : ActorRef N} (hthere : actorRef.id ∈ s.actors)
    (htrap : s.trapExit actorRef.id = false) (hroot : Root s actorRef.id)
    (hroots : ∀ l e, s.links l = some e → ∀ x ∈ s.actors, Ends e.linkRef x → Root s x)
    (error : String) :
    ∃ s', s.step callbacks stringify (.crash actorRef error) = some s' ∧
      Inevitable (Settles callbacks stringify fun _ => false) (Propagated s actorRef.id) s' := by
  have hsound := SoundSystem.run hrun
  have hlinks : LinksAgree s.actors s.toRelations := hsound.bonds.agree.links
  have hlt : actorRef.id < s.nextId := hsound.bonds.actors _ hthere
  refine ⟨s.invoke [.crash actorRef error], if_pos hlt, ?_⟩
  have hcalls : (s.invoke [.crash actorRef error]).calls = [[.crash actorRef error]] := by
    simp [ActorSystem.invoke, hidle]
  have hbegun : Spreads s actorRef.id (s.invoke [.crash actorRef error]) := by
    have hnone : ∀ l e, s.links l = some e → s.links l = none → False := fun l e he hnone =>
      absurd (he.symm.trans hnone) (Option.some_ne_none e)
    refine ⟨hsound.invokeOne ⟨rfl, by rintro _ _ _ ⟨⟩⟩, hstop, rfl, fun x hx => ?_, fun c hc => ?_,
      Finset.Subset.refl _, fun x hx hx' => absurd hx hx', fun _ _ he => he,
      fun l e he hcut => (hnone l e he hcut).elim, ⟨[], by simp [ActorSystem.invoke],
        List.nodup_nil, fun z ref => ?_⟩, ⟨[], (List.append_nil _).symm,
        fun _ hx => absurd hx List.not_mem_nil, fun x hx hx' => absurd hx hx', fun r hr => ?_⟩,
      .inr ⟨_, by rw [hcalls]; exact List.mem_singleton.2 rfl, rfl⟩⟩
    · cases Relation.ReflTransGen.cases_tail hx with
      | inl heq => exact heq ▸ ⟨hroot.parent, hroot.children, hroot.here⟩
      | inr hlast =>
          obtain ⟨y, -, ⟨l, e, he, hjoins⟩, hmem, -⟩ := hlast
          have hx := hroots l e he x hmem hjoins.ends.2
          exact ⟨hx.parent, hx.children, hx.here⟩
    · rw [hcalls] at hc
      rw [List.mem_singleton.1 hc]
      exact ⟨actorRef, .refl, .crashed error⟩
    · refine iff_of_false List.not_mem_nil ?_
      rintro ⟨-, -, e, he, -, hcut⟩
      exact hnone _ e he hcut
    · rw [hcalls] at hr
      cases List.mem_singleton.1 hr
  refine (Inevitable.of_rank (rank s) lower_wf
    (fun s₁ s₂ h hst => h.settles hlinks hthere htrap hquiet hst) (fun t ht => ?_) hbegun).mono
    fun t ht => ht.1.propagated hlinks hthere htrap ht.2
  cases hc : t.calls with
  | nil => exact .inl rfl
  | cons call calls =>
      obtain ⟨r, -, hstage⟩ := ht.calls call (by rw [hc]; simp)
      cases call with
      | nil => cases hstage.subject
      | cons task outer =>
          have hfirst : t.calls[0]? = some (task :: outer) := by rw [hc]; rfl
          exact .inr ⟨_, settles_resumes hfirst (failing_none task) 0⟩

section

def silent : Callbacks Nat := ⟨fun _ _ => [], fun _ _ => false⟩

/-- A node that stops actors that crash. -/
def node : ActorSystem Nat Nat :=
  .init 0 (fun _ => ⟨.oneForOne, 3, 1000⟩) (.new .Stop 3 1000)

def worker (id : ActorId) : ActorRef Nat := ⟨0, id, none, 0⟩

/-- Two actors with two links between them, the second linked to itself and to a third,
which traps exits. -/
def linked : ActorSystem Nat Nat :=
  (run (ActorSystem.step silent fun _ => "") node
    [.spawn "Worker" {}, .spawn "Worker" {}, .spawn "Boss" {}, .link (worker 0) (worker 1),
      .link (worker 1) (worker 0), .link (worker 1) (worker 1), .link (worker 1) (worker 2),
      .setTrapExit 2 true]).getD node

theorem links_propagate_linked :
    ∃ s', linked.step silent (fun _ => "") (.crash (worker 0) "failed") = some s' ∧
      Inevitable (Settles silent (fun _ => "") fun _ => false) (Propagated linked 0) s' := by
  have hrun : run (ActorSystem.step silent fun _ => "") node
      [.spawn "Worker" {}, .spawn "Worker" {}, .spawn "Boss" {}, .link (worker 0) (worker 1),
        .link (worker 1) (worker 0), .link (worker 1) (worker 1), .link (worker 1) (worker 2),
        .setTrapExit 2 true] = some linked := rfl
  have hroots : ∀ x ∈ linked.actors, linked.toTables.parentOf x = none ∧
      (linked.context x).children = [] ∧ x ∉ linked.remoteParents := by decide
  have hroot : ∀ x ∈ linked.actors, Root linked x := fun x hx =>
    ⟨(hroots x hx).1, (hroots x hx).2.1, (hroots x hx).2.2⟩
  exact links_propagate hrun (by decide) (by decide) ⟨fun _ _ => rfl, fun _ _ => rfl⟩ (by decide)
    (by decide) (hroot 0 (by decide)) (fun _ _ _ x hx _ => hroot x hx) "failed"

end

end Libeam.Proofs.LinkPropagation
