import Libeam.Proofs.RestartFrames
/-!
# Stops that take the children along

`stop` looks up the children once and stops them one after the other before the actor
leaves.  What an actor still owes is a relation between a parent and its children;
`Cascade` says of a call that every stop in it which has looked up the children owes
only those it is still to stop, and none once the actor leaves.  The relation is a
parameter: children on this node and entries for children on other nodes are two
instances of it.
-/

namespace Libeam.Proofs.StopCascade

open Libeam.System (ActorId)
open Supervision TreeTables TreeSteps
open RestartFrames (stopping)

variable {N V : Type}

/-! ## Closing actors -/

/-- The actor whose stop has looked up the children already. -/
def closes : Frame N V → Option ActorId
  | .children r _ | .unregistering r | .terminating r => some r.id
  | _ => none

/-- The actor that a stop has taken off the lists of its parent. -/
def leaves : Frame N V → Option ActorId
  | .unregistering r | .terminating r => some r.id
  | _ => none

def Closing (calls : List (List (Frame N V))) (q : ActorId) : Prop :=
  ∃ call ∈ calls, ∃ f ∈ call, closes f = some q

/-! ## Debts of a call -/

section
variable (duty : Frame N V → Option ActorId) (owed : ActorId → ActorId → Prop)

/-- A stop owes nothing but what it is still to stop; `ahead` is what the function just
further in stops. -/
def Settles (ahead : Option ActorId) : Frame N V → Prop
  | .children r rest => ∀ x, owed r.id x → x ∈ rest.map (·.id) ∨ ahead = some x
  | .unregistering r | .terminating r => ∀ x, ¬ owed r.id x
  | _ => True

def Cascade : Option ActorId → List (Frame N V) → Prop
  | _, [] => True
  | ahead, f :: outer => Settles owed ahead f ∧ Cascade (duty f) outer

/-- What the last of these functions stops. -/
def lastDuty (ahead : Option ActorId) (frames : List (Frame N V)) : Option ActorId :=
  match frames.getLast? with
  | some f => duty f
  | none => ahead

end

section
variable {duty : Frame N V → Option ActorId} {owed owed' : ActorId → ActorId → Prop}

@[simp] theorem settles_of_open {ahead : Option ActorId} {f : Frame N V} (h : closes f = none) :
    Settles owed ahead f := by
  cases f with
  | children | unregistering | terminating => cases h
  | stop | stopSingle | respawn | strategy | stopRemoteChild | stopRequest | restartRequest
  | spawnRequest | migrating => trivial

/-- Debts that a closing actor had before, and a function ahead that is replaced by one
with the same duty or has done it. -/
theorem Settles.mono {ahead ahead' : Option ActorId} {f : Frame N V}
    (h : Settles owed ahead f)
    (howed : ∀ q, closes f = some q → ∀ x, owed' q x → owed q x)
    (hahead : ∀ q x, ahead = some x → owed' q x → ahead' = some x) : Settles owed' ahead' f := by
  cases f with
  | children r rest =>
      intro x hx
      rcases h x (howed r.id rfl x hx) with hin | hduty
      · exact .inl hin
      · exact .inr (hahead r.id x hduty hx)
  | unregistering r => exact fun x hx => h x (howed r.id rfl x hx)
  | terminating r => exact fun x hx => h x (howed r.id rfl x hx)
  | stop | stopSingle | respawn | strategy | stopRemoteChild | stopRequest | restartRequest
  | spawnRequest | migrating => trivial

theorem Cascade.mono {ahead ahead' : Option ActorId} {call : List (Frame N V)}
    (h : Cascade duty owed ahead call)
    (howed : ∀ f ∈ call, ∀ q, closes f = some q → ∀ x, owed' q x → owed q x)
    (hahead : ∀ q x, ahead = some x → owed' q x → ahead' = some x) :
    Cascade duty owed' ahead' call := by
  induction call generalizing ahead ahead' with
  | nil => trivial
  | cons f outer ih =>
      exact ⟨h.1.mono (howed f List.mem_cons_self) hahead,
        ih h.2 (fun g hg => howed g (List.mem_cons_of_mem _ hg)) fun _ _ hduty _ => hduty⟩

theorem Cascade.append {ahead : Option ActorId} {frames outer : List (Frame N V)} :
    Cascade duty owed ahead (frames ++ outer) ↔
      Cascade duty owed ahead frames ∧ Cascade duty owed (lastDuty duty ahead frames) outer := by
  induction frames generalizing ahead with
  | nil => exact ⟨fun h => ⟨trivial, h⟩, fun h => h.2⟩
  | cons f frames ih =>
      have hlast : lastDuty duty ahead (f :: frames) = lastDuty duty (duty f) frames := by
        cases frames with
        | nil => rfl
        | cons g frames => rfl
      rw [List.cons_append, Cascade, Cascade, ih, hlast, and_assoc]

theorem cascade_of_open {ahead : Option ActorId} {call : List (Frame N V)}
    (h : ∀ f ∈ call, closes f = none) : Cascade duty owed ahead call := by
  induction call generalizing ahead with
  | nil => trivial
  | cons f outer ih =>
      exact ⟨settles_of_open (h f List.mem_cons_self),
        ih fun g hg => h g (List.mem_cons_of_mem _ hg)⟩

/-! ## A stop goes on -/

variable [DecidableEq N] {t : Tables N V}

theorem closes_stopFrame (c : ActorRef N) : closes (t.stopFrame c) = none := by
  unfold Tables.stopFrame
  split_ifs <;> rfl

theorem cascade_leave {r : ActorRef N} (h : ∀ x, ¬ owed r.id x) :
    Cascade duty owed none (t.leave r).2 := by
  unfold Tables.leave
  dsimp only
  split_ifs
  · exact ⟨h, trivial⟩
  · exact ⟨h, trivial⟩

/-- The functions that take the place of one that goes on. -/
theorem cascade_resumes {response : Response} {f : Frame N V} {tables : Tables N V}
    {frames : List (Frame N V)} (h : Resumes t response f tables frames)
    (hsettles : Settles owed none f)
    (hshrink : (stopping f).isSome → ∀ q x, owed' q x → owed q x)
    (hlisted : ∀ q ∈ t.actors, ∀ x, owed q x → x ∈ (t.context q).children.map (·.id))
    (hstop : ∀ q c, (c ∈ (t.context q).children ∨ ∃ r rest, f = .children r rest ∧ r.id = q ∧
      c ∈ rest) → owed q c.id → duty (t.stopFrame c) = some c.id)
    (hsingle : ∀ r, f = .stopSingle r → r.id ∈ t.actors → ∀ x, ¬ owed r.id x) :
    Cascade duty owed' none frames := by
  have hloop : ∀ {r rest}, f = .children r rest → ∀ x, owed r.id x → x ∈ rest.map (·.id) := by
    rintro r rest rfl x hx
    exact (hsettles x hx).resolve_right fun hnone => nomatch hnone
  cases h with
  | ends | removed | spawned | forgot | dropped | replaced | added => trivial
  | @descends _ r c rest hf =>
      -- the next child is owed through its own stop
      have hstopping : (stopping f).isSome := by
        rcases hf with ⟨rfl, -, -⟩ | rfl
        · rfl
        · rfl
      refine ⟨settles_of_open (closes_stopFrame c), fun x hx => ?_, trivial⟩
      have howed := hshrink hstopping r.id x hx
      have hin : x ∈ (c :: rest).map (·.id) := by
        rcases hf with ⟨-, hr, hchildren⟩ | hf
        · exact hchildren ▸ hlisted r.id hr x howed
        · exact hloop hf x howed
      rcases List.mem_cons.1 hin with rfl | hin
      · refine .inr (hstop r.id c ?_ howed)
        rcases hf with ⟨-, -, hchildren⟩ | hf
        · exact .inl (hchildren ▸ List.mem_cons_self)
        · exact .inr ⟨r, _, hf, rfl, List.mem_cons_self⟩
      · exact .inl hin
  | @leaves _ r hf =>
      refine cascade_leave fun x hx => ?_
      rcases hf with ⟨rfl, hr, hchildren⟩ | rfl | ⟨rfl, hr⟩
      · have hin := hlisted r.id hr x (hshrink rfl _ _ hx)
        rw [hchildren] at hin
        exact List.not_mem_nil hin
      · exact List.not_mem_nil (hloop rfl x (hshrink rfl _ _ hx))
      · exact hsingle r rfl hr x (hshrink rfl _ _ hx)
  | unregistered => exact ⟨fun x hx => hsettles x (hshrink rfl _ _ hx), trivial⟩
  | childSpawned hp hsuccess hf =>
      rcases hf with ⟨-, -, rfl⟩ | ⟨remote, plan, -, rfl⟩
      · trivial
      · exact ⟨trivial, trivial⟩
  | stops hg =>
      refine ⟨settles_of_open ?_, trivial, trivial⟩
      rcases hg with rfl | rfl
      · rfl
      · exact closes_stopFrame _
  | requests hp => exact ⟨trivial, trivial, trivial⟩
  | requestsStop he => exact ⟨trivial, trivial⟩

omit [DecidableEq N] in
theorem open_invokes {a : TreeAction N V} {frames : List (Frame N V)}
    (h : Invokes t a frames) : ∀ f ∈ frames, closes f = none := by
  intro f hf
  cases h with
  | stop | strategy | stopRemote | restartRemote | spawnRemote | migrate =>
      exact List.mem_singleton.1 hf ▸ rfl
  | restart ha hm =>
      rcases List.mem_cons.1 hf with rfl | hf
      · rfl
      · exact List.mem_singleton.1 hf ▸ rfl

end

/-! ## Steps -/

section
variable [DecidableEq N] {duty : Frame N V → Option ActorId}
  {owed : Tables N V → ActorId → ActorId → Prop} {t : Tree N V}

/-- What a relation has to satisfy so that a step keeps the cascade. -/
structure Pays (duty : Frame N V → Option ActorId)
    (owed : Tables N V → ActorId → ActorId → Prop) (t : Tree N V) (a : TreeAction N V)
    (tables : Tables N V) : Prop where
  /-- A closing actor gets no new debts. -/
  grow : ∀ q, Closing t.calls q → ∀ x, owed tables q x → owed t.toTables q x
  /-- A stop looks up all that is owed, and stops it. -/
  listed : ∀ q ∈ t.actors, ∀ x, owed t.toTables q x → x ∈ (t.context q).children.map (·.id)
  stop : ∀ q c, ChildRef t.toTables q c → owed t.toTables q c.id →
    duty (t.toTables.stopFrame c) = some c.id
  /-- Only an actor that owes nothing is stopped without its children. -/
  single : ∀ index response r outer, a = .resumes index response →
    t.calls[index]? = some (.stopSingle r :: outer) → r.id ∈ t.actors →
    ∀ x, ¬ owed t.toTables r.id x
  shrink : ∀ index response f outer, a = .resumes index response →
    t.calls[index]? = some (f :: outer) → (stopping f).isSome →
    ∀ q x, owed tables q x → owed t.toTables q x
  /-- A function keeps its duty until nobody owes what it stops. -/
  paid : ∀ index response f outer, a = .resumes index response →
    t.calls[index]? = some (f :: outer) → tables = (t.toTables.resumeFrame response f).1 →
    ∀ q x, duty f = some x → owed tables q x →
    lastDuty duty none (t.toTables.resumeFrame response f).2 = some x

theorem cascade_steps (h : SoundTree t) {a : TreeAction N V} {tables : Tables N V}
    {calls : List (List (Frame N V))} (hsteps : Steps t a tables calls)
    (hpays : Pays duty owed t a tables)
    (hcascade : ∀ call ∈ t.calls, Cascade duty (owed t.toTables) none call) :
    ∀ call ∈ calls, Cascade duty (owed tables) none call := by
  have hkeep : ∀ call ∈ t.calls, ∀ f ∈ call, ∀ q, closes f = some q →
      ∀ x, owed tables q x → owed t.toTables q x :=
    fun call hcall f hf q hq => hpays.grow q ⟨call, hcall, f, hf, hq⟩
  have hold : ∀ call ∈ t.calls, Cascade duty (owed tables) none call := fun call hcall =>
    (hcascade call hcall).mono (hkeep call hcall) fun _ _ hx => nomatch hx
  cases hsteps with
  | idle | spawned | childSpawned | removedRemote => exact hold
  | rejected hcall hf => exact fun call hin => hold call (List.mem_of_mem_eraseIdx hin)
  | invoked hinvokes =>
      intro call hin
      rcases List.mem_append.1 hin with hin | hin
      · exact hold call hin
      · rw [List.mem_singleton.1 hin]
        exact cascade_of_open (open_invokes hinvokes)
  | @resumed index response f outer hcall =>
      have hmem := List.mem_of_getElem? hcall
      have hframe := h.frames _ hmem f List.mem_cons_self
      obtain ⟨hsettles, houter⟩ := hcascade _ hmem
      intro call hin
      rcases mem_setCalls hin with hin | rfl
      · exact hold call hin
      · refine Cascade.append.2 ⟨cascade_resumes (resumeFrame_cases _ _ _) hsettles
          (hpays.shrink index response f outer rfl hcall) hpays.listed (fun q c hc hx => ?_)
          (fun r hr => hpays.single index response r outer rfl (hr ▸ hcall)), ?_⟩
        · rcases hc with hc | ⟨r, rest, rfl, rfl, hc⟩
          · exact hpays.stop q c ((h.tables.contexts q).children c hc) hx
          · exact hpays.stop r.id c (hframe.2 c hc) hx
        · exact houter.mono (fun g hg => hkeep _ hmem g (List.mem_cons_of_mem _ hg))
            fun q x hx howed => hpays.paid index response f outer rfl hcall rfl q x hx howed

end

/-! ## Actors off the lists -/

section
variable [DecidableEq N]

/-- An actor that a stop has taken off the lists, and that `P` is about, is about to be
removed by the innermost function of a call. -/
structure Leaving (P : Tables N V → ActorId → Prop) (t : Tree N V) : Prop where
  innermost : ∀ f outer, f :: outer ∈ t.calls → ∀ g ∈ outer, leaves g = none
  detached_lt : ∀ x ∈ t.detached, x < t.nextId
  leaving : ∀ x ∈ t.actors, x ∈ t.detached → P t.toTables x →
    ∃ f outer, f :: outer ∈ t.calls ∧ leaves f = some x

section
variable {t : Tables N V}

theorem leaves_leave (r : ActorRef N) : ∃ f, (t.leave r).2 = [f] ∧ leaves f = some r.id := by
  unfold Tables.leave
  dsimp only
  split_ifs
  · exact ⟨_, rfl, rfl⟩
  · exact ⟨_, rfl, rfl⟩

/-- Only the first of the functions that take the place of another can be leaving. -/
theorem innermost_resumes {response : Response} {f : Frame N V} {tables : Tables N V}
    {frames : List (Frame N V)} (h : Resumes t response f tables frames) :
    ∀ g ∈ frames.tail, leaves g = none := by
  intro g hg
  cases h with
  | ends | unregistered | removed | spawned | requestsStop | forgot | dropped | replaced | added =>
      exact (List.not_mem_nil hg).elim
  | descends | stops | requests => exact List.mem_singleton.1 hg ▸ rfl
  | @leaves _ r hf =>
      obtain ⟨f', hf', -⟩ := leaves_leave (t := t) r
      rw [hf'] at hg
      exact (List.not_mem_nil hg).elim
  | childSpawned hp hsuccess hf =>
      rcases hf with ⟨-, -, rfl⟩ | ⟨remote, plan, -, rfl⟩
      · exact (List.not_mem_nil hg).elim
      · exact (List.not_mem_nil hg).elim

theorem detached_dropRemoteChild (c p : ActorRef N) :
    (t.dropRemoteChild c p).detached = t.detached := by
  unfold Tables.dropRemoteChild
  split_ifs <;> rfl

theorem detached_replaceRemoteChild (e : RemoteChildEntry N V) :
    (t.replaceRemoteChild e).detached = t.detached := by
  unfold Tables.replaceRemoteChild
  dsimp only
  split_ifs <;> rfl

omit [DecidableEq N] in
theorem detached_spawnChild (p : ActorRef N) (actorClass : String) (options : SpawnOptions V)
    (first : Option ActorId) :
    (t.spawnChild p actorClass options first).detached = t.detached := by
  unfold Tables.spawnChild
  split_ifs <;> rfl

/-- An actor comes off the lists when a function begins to leave, and stays in the tables
until that function has ended. -/
theorem leaving_resumes {response : Response} {f : Frame N V} {tables : Tables N V}
    {frames : List (Frame N V)} (h : Resumes t response f tables frames) {x : ActorId}
    (hx : x ∈ tables.detached) :
    (x ∈ t.detached ∧ (x ∈ tables.actors → leaves f ≠ some x)) ∨
      ∃ g rest, frames = g :: rest ∧ leaves g = some x := by
  cases h with
  | ends hf =>
      refine .inl ⟨hx, ?_⟩
      cases f with
      | unregistering | terminating => exact hf.elim
      | _ => exact fun _ heq => nomatch heq
  | descends hf =>
      refine .inl ⟨hx, ?_⟩
      rcases hf with ⟨rfl, -, -⟩ | rfl
      · exact fun _ heq => nomatch heq
      · exact fun _ heq => nomatch heq
  | @leaves _ r hf =>
      obtain ⟨g, hg, hleaves⟩ := leaves_leave (t := t) r
      rw [detach_detached] at hx
      rcases Finset.mem_insert.1 hx with rfl | hx
      · exact .inr ⟨g, [], hg, hleaves⟩
      · refine .inl ⟨hx, ?_⟩
        rcases hf with ⟨rfl, -, -⟩ | rfl | ⟨rfl, -⟩
        · exact fun _ heq => nomatch heq
        · exact fun _ heq => nomatch heq
        · exact fun _ heq => nomatch heq
  | @unregistered r =>
      by_cases hr : r.id = x
      · exact .inr ⟨_, [], rfl, congrArg some hr⟩
      · exact .inl ⟨hx, fun _ heq => hr (Option.some.inj heq)⟩
  | @removed _ y hf =>
      refine .inl ⟨hx, fun hlive heq => ?_⟩
      rcases hf with ⟨r, rfl, rfl⟩ | ⟨rfl, -⟩
      · exact Finset.ne_of_mem_erase hlive (Option.some.inj heq).symm
      · cases heq
  | spawned | stops | requests | requestsStop | added => exact .inl ⟨hx, fun _ heq => nomatch heq⟩
  | childSpawned hp hsuccess hf =>
      rw [detached_spawnChild] at hx
      refine .inl ⟨hx, ?_⟩
      rcases hf with ⟨rfl, -, -⟩ | ⟨remote, plan, rfl, -⟩
      · exact fun _ heq => nomatch heq
      · exact fun _ heq => nomatch heq
  | forgot hf =>
      refine .inl ⟨hx, ?_⟩
      rcases hf with ⟨rfl, -⟩ | ⟨rfl, -⟩
      · exact fun _ heq => nomatch heq
      · exact fun _ heq => nomatch heq
  | dropped hresponse =>
      rw [detached_dropRemoteChild] at hx
      exact .inl ⟨hx, fun _ heq => nomatch heq⟩
  | replaced hsuccess =>
      rw [detached_replaceRemoteChild] at hx
      exact .inl ⟨hx, fun _ heq => nomatch heq⟩

/-- Only a function that leaves, or a migration, removes an actor. -/
theorem removed_resumes {response : Response} {f : Frame N V} {tables : Tables N V}
    {frames : List (Frame N V)} (h : Resumes t response f tables frames) {q : ActorId}
    (hlive : q ∈ t.actors) (hgone : q ∉ tables.actors) :
    (∃ r, f = .terminating r ∧ r.id = q) ∨ f = .migrating q ∧ response = .success := by
  cases h with
  | ends | descends | unregistered | stops | requests | requestsStop | forgot | added =>
      exact absurd hlive hgone
  | @leaves _ r hf =>
      rw [detach_actors] at hgone
      exact absurd hlive hgone
  | @removed _ y hf =>
      have heq : q = y := by
        by_contra hne
        exact hgone (Finset.mem_erase.2 ⟨hne, hlive⟩)
      subst heq
      exact hf
  | spawned hsuccess hm => exact absurd (Finset.mem_insert_of_mem hlive) hgone
  | @childSpawned _ x m _ p hp hsuccess hf =>
      unfold Tables.spawnChild at hgone
      rw [if_pos hp] at hgone
      exact absurd (Finset.mem_insert_of_mem hlive) hgone
  | @dropped e hresponse =>
      rw [RestartFrames.actors_dropRemoteChild] at hgone
      exact absurd hlive hgone
  | @replaced e hsuccess =>
      rw [RestartFrames.actors_replaceRemoteChild] at hgone
      exact absurd hlive hgone

end

variable {t : Tree N V}

theorem removed_steps {a : TreeAction N V} {tables : Tables N V} {calls : List (List (Frame N V))}
    (h : Steps t a tables calls) {q : ActorId} (hlive : q ∈ t.actors) (hgone : q ∉ tables.actors) :
    ∃ index response f outer, a = .resumes index response ∧
      t.calls[index]? = some (f :: outer) ∧
      ((∃ r, f = .terminating r ∧ r.id = q) ∨ f = .migrating q ∧ response = .success) := by
  cases h with
  | idle | invoked | rejected => exact absurd hlive hgone
  | spawned ha => exact absurd (Finset.mem_insert_of_mem hlive) hgone
  | @childSpawned p actorClass options =>
      unfold Tables.spawnChild at hgone
      split_ifs at hgone
      · exact absurd (Finset.mem_insert_of_mem hlive) hgone
      · exact absurd hlive hgone
  | removedRemote ha =>
      rw [RestartFrames.actors_removeRemoteChild] at hgone
      exact absurd hlive hgone
  | @resumed index response f outer hcall =>
      exact ⟨index, response, f, outer, rfl, hcall,
        removed_resumes (resumeFrame_cases _ _ _) hlive hgone⟩

omit [DecidableEq N] in
theorem leaves_invokes {a : TreeAction N V} {frames : List (Frame N V)}
    (h : Invokes t.toTables a frames) : ∀ f ∈ frames, leaves f = none := by
  intro f hf
  have hopen := open_invokes h f hf
  cases f with
  | unregistering r => cases hopen
  | terminating r => cases hopen
  | _ => rfl

theorem detached_removeRemoteChild (x : ActorId) (p : ActorRef N) :
    (t.toTables.removeRemoteChild x p).detached = t.detached := by
  unfold Tables.removeRemoteChild
  split
  · rfl
  · exact detached_dropRemoteChild _ _

omit [DecidableEq N] in
theorem leaves_lt {t : Tables N V} {f : Frame N V} (h : SoundFrame t f) {x : ActorId}
    (hx : leaves f = some x) : x < t.nextId := by
  cases f with
  | unregistering | terminating =>
      cases hx
      exact h.1
  | _ => cases hx

/-- Actors that leave stay accounted for, as long as no stop of one that matters is
rejected. -/
theorem leaving_steps {P : Tables N V → ActorId → Prop} (h : SoundTree t) (hleaving : Leaving P t)
    {a : TreeAction N V} {t' : Tree N V} (hsteps : Steps t a t'.toTables t'.calls)
    (hP : ∀ x < t.nextId, P t'.toTables x → P t.toTables x)
    (hrejects : ∀ index f outer x, a = .rejects index → t.calls[index]? = some (f :: outer) →
      leaves f = some x → x ∈ t.actors → ¬ P t.toTables x) : Leaving P t' := by
  have hext := steps_extends hsteps
  generalize htables : t'.toTables = tables at hsteps
  generalize hcalls : t'.calls = calls at hsteps
  -- a step that takes nobody off the lists and leaves the calls in place
  have hcalm : tables.detached = t.detached → (∀ call ∈ t.calls, call ∈ calls) →
      (∀ f outer, f :: outer ∈ calls → ∀ g ∈ outer, leaves g = none) → Leaving P t' := by
    intro hdetached hkept hinner
    rw [← htables] at hdetached
    refine ⟨hcalls ▸ hinner, fun x hx => ?_, fun x hlive hx hPx => ?_⟩
    · exact Nat.lt_of_lt_of_le (hleaving.detached_lt x (hdetached ▸ hx)) hext.nextId
    · rw [hdetached] at hx
      have hlt := hleaving.detached_lt x hx
      obtain ⟨f, outer, hin, hf⟩ := hleaving.leaving x (hext.actors x hlive hlt) hx (hP x hlt hPx)
      exact ⟨f, outer, hcalls ▸ hkept _ hin, hf⟩
  cases hsteps with
  | idle | spawned => exact hcalm rfl (fun _ hin => hin) hleaving.innermost
  | childSpawned => exact hcalm (detached_spawnChild _ _ _ _) (fun _ hin => hin) hleaving.innermost
  | removedRemote ha =>
      exact hcalm (detached_removeRemoteChild _ _) (fun _ hin => hin) hleaving.innermost
  | @invoked _ frames hinvokes =>
      refine hcalm rfl (fun _ hin => List.mem_append_left _ hin) fun f outer hin g hg => ?_
      rcases List.mem_append.1 hin with hin | hin
      · exact hleaving.innermost f outer hin g hg
      · exact leaves_invokes hinvokes g (List.mem_singleton.1 hin ▸ List.mem_cons_of_mem _ hg)
  | @rejected index f outer r hcall hf =>
      refine ⟨fun g rest hin => hleaving.innermost g rest
        (List.mem_of_mem_eraseIdx (hcalls ▸ hin)), fun x hx => ?_, fun x hlive hx hPx => ?_⟩
      · rw [htables] at hx ⊢
        exact hleaving.detached_lt x hx
      · rw [htables] at hlive hx
        have hPx := hP x (hleaving.detached_lt x hx) hPx
        obtain ⟨g, rest, hin, hg⟩ := hleaving.leaving x hlive hx hPx
        obtain ⟨i, hi⟩ := List.mem_iff_getElem?.1 hin
        refine ⟨g, rest, ?_, hg⟩
        rw [hcalls, List.mem_eraseIdx_iff_getElem?]
        refine ⟨i, fun heq => ?_, hi⟩
        rw [heq, hcall] at hi
        cases hi
        exact hrejects index f outer x rfl hcall hg hlive hPx
  | @resumed index response f outer hcall =>
      have hmem := List.mem_of_getElem? hcall
      have hcase := resumeFrame_cases t.toTables response f
      have hnew := (sound_resumeFrame h.tables response
        (h.frames _ hmem f List.mem_cons_self)).2
      generalize (t.toTables.resumeFrame response f).2 = frames at hcase hcalls hnew
      have hfirst : ∀ g rest, frames = g :: rest →
          g :: (rest ++ outer) ∈ setCalls t.calls index (frames ++ outer) := by
        rintro g rest rfl
        unfold setCalls
        rw [if_neg (by simp)]
        exact List.mem_of_getElem? (List.getElem?_set_self
          (List.getElem?_eq_some_iff.1 hcall).1)
      refine ⟨fun g rest hin => ?_, fun x hx => ?_, fun x hlive hx hPx => ?_⟩
      · rcases mem_setCalls (hcalls ▸ hin) with hin | heq
        · exact hleaving.innermost g rest hin
        · intro g' hg'
          cases frames with
          | nil => exact hleaving.innermost f outer hmem g' (by
              rw [List.nil_append] at heq
              exact heq ▸ List.mem_cons_of_mem _ hg')
          | cons g₀ frames =>
              rw [List.cons_append] at heq
              cases heq
              rcases List.mem_append.1 hg' with hg' | hg'
              · exact innermost_resumes hcase g' hg'
              · exact hleaving.innermost f outer hmem g' hg'
      · rw [htables] at hx ⊢
        rcases leaving_resumes hcase hx with ⟨hx, -⟩ | ⟨g, rest, rfl, hg⟩
        · exact Nat.lt_of_lt_of_le (hleaving.detached_lt x hx) (htables ▸ hext.nextId)
        · exact leaves_lt (hnew g List.mem_cons_self) hg
      · rw [htables] at hlive hx
        rcases leaving_resumes hcase hx with ⟨hx, hnot⟩ | ⟨g, rest, hframes, hg⟩
        · have hlt := hleaving.detached_lt x hx
          obtain ⟨g, rest, hin, hg⟩ := hleaving.leaving x
            (hext.actors x (htables ▸ hlive) hlt) hx (hP x hlt hPx)
          obtain ⟨i, hi⟩ := List.mem_iff_getElem?.1 hin
          refine ⟨g, rest, ?_, hg⟩
          have hne : i ≠ index := by
            rintro rfl
            rw [hcall] at hi
            cases hi
            exact hnot hlive hg
          rw [hcalls]
          unfold setCalls
          split_ifs
          · exact List.mem_eraseIdx_iff_getElem?.2 ⟨i, hne, hi⟩
          · refine List.mem_of_getElem? (i := i) ?_
            rw [List.getElem?_set_ne (Ne.symm hne)]
            exact hi
        · exact ⟨g, rest ++ outer, hcalls ▸ hfirst g rest hframes, hg⟩

end

end Libeam.Proofs.StopCascade
