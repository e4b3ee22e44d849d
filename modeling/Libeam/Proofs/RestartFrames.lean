import Libeam.Proofs.TreeSteps
/-!
# Restarts under way

A restart is under way from the moment it has been decided until the new instance is
there: in the meantime its call stops the old instance.  `starting` and `stopping` read
this off the suspended functions, `Covers` says that a call stops what is there
before it starts the next instance, and `Born` says which lineage a new instance
continues.
-/

namespace Libeam.Proofs.RestartFrames

open Libeam.System (ActorId)
open Supervision TreeTables TreeSteps

variable {N V : Type}

/-! ## Restarts under way -/

/-- The children that a suspended function will start again. -/
def starting : Frame N V → List ActorId
  | .respawn x m => if m.parent.isSome then [x] else []
  | .strategy _ _ _ plan => plannedIds plan
  | _ => []

/-- The instance that a suspended function stops. -/
def stopping : Frame N V → Option ActorId
  | .stop r | .children r _ | .stopSingle r | .unregistering r | .terminating r => some r.id
  | _ => none

/-- The instances that a strategy stops before it starts any. -/
def stopsFirst : Frame N V → List ActorId
  | .strategy _ stops _ _ => stops.map (·.id)
  | _ => []

/-- The children whose restart is under way. -/
def restarting (calls : List (List (Frame N V))) : List ActorId :=
  calls.flatMap fun call => call.flatMap starting

/-- The child that is replaced when the innermost function of a call goes on. -/
def startsAgain (t : Tables N V) (response : Response) : Frame N V → Option ActorId
  | .respawn x m => m.parent.bind fun p =>
      if response = .success ∧ p.id ∈ t.actors then some x else none
  | .strategy p [] _ (.onNode x _ :: _) =>
      if p.id ∈ t.actors ∧ response = .success then some x else none
  | _ => none

/-- A child of an actor on this node. -/
def IsChild (t : Tables N V) (x : ActorId) : Prop :=
  ∃ m p, t.spawned x = some m ∧ m.parent = some p

/-! ## Calls -/

section
variable {β : Type} (g : List (Frame N V) → List β)

/-- The other calls stay as they are. -/
theorem flatMap_setCalls (hnil : g [] = []) {calls : List (List (Frame N V))} {index : Nat}
    {call : List (Frame N V)} (h : calls[index]? = some call) :
    ∃ before after, calls.flatMap g = before ++ (g call ++ after) ∧
      ∀ frames, (setCalls calls index frames).flatMap g = before ++ (g frames ++ after) := by
  induction calls generalizing index with
  | nil => cases h
  | cons c calls ih =>
      cases index with
      | zero =>
          cases h
          refine ⟨[], calls.flatMap g, rfl, fun frames => ?_⟩
          unfold setCalls
          split_ifs with hframes
          · rw [hframes, hnil]
            rfl
          · rfl
      | succ index =>
          obtain ⟨before, after, hcalls, hset⟩ := ih h
          refine ⟨g c ++ before, after, ?_, fun frames => ?_⟩
          · rw [List.flatMap_cons, hcalls, List.append_assoc]
          · have hshift : setCalls (c :: calls) (index + 1) frames =
                c :: setCalls calls index frames := by
              unfold setCalls
              split_ifs <;> rfl
            rw [hshift, List.flatMap_cons, hset, List.append_assoc]

end

/-! ## What the restarts of a call still stop -/

/-- Every live instance of a lineage that a call starts again is stopped before: by the
functions further in, which stop `gone`, or by the strategy itself. -/
def Covers (t : Tables N V) : List ActorId → List (Frame N V) → Prop
  | _, [] => True
  | gone, f :: outer =>
      (∀ x ∈ starting f, ∀ y ∈ t.actors, t.lineage y = t.lineage x →
        y ∈ gone ∨ y ∈ stopsFirst f) ∧
      Covers t (gone ++ (stopping f).toList) outer

section
variable {t t' : Tables N V}

theorem Covers.append {gone : List ActorId} {frames outer : List (Frame N V)} :
    Covers t gone (frames ++ outer) ↔
      Covers t gone frames ∧ Covers t (gone ++ frames.filterMap stopping) outer := by
  induction frames generalizing gone with
  | nil => simp [Covers]
  | cons f frames ih =>
      rw [List.cons_append, Covers, Covers, ih, and_assoc, List.filterMap_cons]
      cases stopping f with
      | none => simp
      | some x => simp

/-- Nothing that a call has to stop is forgotten when instances are removed or instances
of other lineages come. -/
theorem Covers.mono {gone gone' : List ActorId} {call : List (Frame N V)}
    (h : Covers t gone call)
    (hsame : ∀ x ∈ call.flatMap starting, ∀ y ∈ t'.actors, t'.lineage y = t'.lineage x →
      y ∈ t.actors ∧ t.lineage y = t.lineage x)
    (hgone : ∀ y ∈ gone, y ∈ t'.actors → y ∈ gone') : Covers t' gone' call := by
  induction call generalizing gone gone' with
  | nil => trivial
  | cons f outer ih =>
      rw [List.flatMap_cons] at hsame
      refine ⟨fun x hx y hy heq => ?_, ih h.2 (fun x hx =>
        hsame x (List.mem_append_right _ hx)) fun y hy hlive => ?_⟩
      · obtain ⟨hold, hlineage⟩ := hsame x (List.mem_append_left _ hx) y hy heq
        exact (h.1 x hx y hold hlineage).imp_left fun hin => hgone y hin hy
      · rcases List.mem_append.1 hy with hy | hy
        · exact List.mem_append_left _ (hgone y hy hlive)
        · exact List.mem_append_right _ hy

theorem covers_of_unmatched {gone : List ActorId} {call : List (Frame N V)}
    (h : ∀ x ∈ call.flatMap starting, ∀ y ∈ t.actors, t.lineage y ≠ t.lineage x) :
    Covers t gone call := by
  induction call generalizing gone with
  | nil => trivial
  | cons f outer ih =>
      rw [List.flatMap_cons] at h
      exact ⟨fun x hx y hy heq => absurd heq (h x (List.mem_append_left _ hx) y hy),
        ih fun x hx => h x (List.mem_append_right _ hx)⟩

end

/-! ## Resuming -/

section
variable {t : Tables N V}

theorem leave_starting [DecidableEq N] (r : ActorRef N) :
    (t.leave r).2.flatMap starting = [] ∧ (t.leave r).2.filterMap stopping = [r.id] := by
  unfold Tables.leave
  dsimp only
  split_ifs <;> exact ⟨rfl, rfl⟩

theorem stopFrame_starting [DecidableEq N] (c : ActorRef N) : starting (t.stopFrame c) = [] := by
  unfold Tables.stopFrame
  split_ifs <;> rfl

theorem stopChildren_starting [DecidableEq N] (r : ActorRef N) (rest : List (ActorRef N)) :
    (t.stopChildren r rest).2.flatMap starting = [] ∧
      r.id ∈ (t.stopChildren r rest).2.filterMap stopping := by
  cases rest with
  | nil =>
      obtain ⟨hstarting, hstopping⟩ := leave_starting (t := t) r
      exact ⟨hstarting, hstopping ▸ List.mem_singleton_self _⟩
  | cons c rest =>
      dsimp only [Tables.stopChildren]
      refine ⟨?_, List.mem_filterMap.2 ⟨.children r rest, by simp, rfl⟩⟩
      rw [List.flatMap_cons, stopFrame_starting]
      rfl

/-- What was going to be started again either is, or still will be. -/
theorem starting_resumeFrame [DecidableEq N] (response : Response) (f : Frame N V) :
    ((startsAgain t response f).toList ++ (t.resumeFrame response f).2.flatMap starting).Sublist
      (starting f) := by
  cases f with
  | stop r =>
      dsimp only [Tables.resumeFrame, startsAgain]
      split_ifs
      · rw [(stopChildren_starting r _).1]
        exact List.nil_sublist _
      · exact List.nil_sublist _
  | children r rest =>
      dsimp only [Tables.resumeFrame, startsAgain]
      rw [(stopChildren_starting r _).1]
      exact List.nil_sublist _
  | stopSingle r =>
      dsimp only [Tables.resumeFrame, startsAgain]
      split_ifs
      · rw [(leave_starting r).1]
        exact List.nil_sublist _
      · exact List.nil_sublist _
  | unregistering | terminating => exact List.nil_sublist _
  | respawn x m =>
      dsimp only [Tables.resumeFrame, startsAgain, starting]
      rw [List.flatMap_nil, List.append_nil]
      cases m.parent with
      | none => exact List.nil_sublist _
      | some p =>
          rw [Option.bind_some, Option.isSome_some, if_pos rfl]
          split_ifs
          · exact List.Sublist.refl _
          · exact List.nil_sublist _
  | strategy p stops remote plan =>
      cases stops with
      | cons c stops =>
          dsimp only [Tables.resumeFrame, startsAgain, Option.toList_none, List.nil_append]
          have hstop : starting (if remote = true then t.stopFrame c else .stop c) = [] := by
            split_ifs
            · exact stopFrame_starting c
            · rfl
          rw [List.flatMap_cons, hstop, List.nil_append, List.flatMap_singleton]
          exact List.Sublist.refl _
      | nil =>
          cases plan with
          | nil => exact List.nil_sublist _
          | cons b plan =>
              cases b with
              | onNode x m =>
                  dsimp only [Tables.resumeFrame, Tables.startPlanned, startsAgain]
                  split_ifs
                  · change ([x] ++ (plannedIds plan ++ [])).Sublist (x :: plannedIds plan)
                    rw [List.append_nil]
                    exact List.Sublist.refl _
                  · exact List.nil_sublist _
              | remote e =>
                  dsimp only [Tables.resumeFrame, Tables.startPlanned, startsAgain]
                  split_ifs
                  · change ([] ++ (plannedIds plan ++ [])).Sublist (plannedIds plan)
                    rw [List.append_nil]
                    exact List.Sublist.refl _
                  · exact List.nil_sublist _
  | stopRemoteChild | stopRequest | restartRequest | spawnRequest | migrating =>
      dsimp only [Tables.resumeFrame, startsAgain]
      split <;> exact List.nil_sublist _

/-- A stop under way goes on until the instance is gone. -/
theorem stopping_resumeFrame [DecidableEq N] (response : Response) {f : Frame N V} {y : ActorId}
    (hf : stopping f = some y) (hlive : y ∈ (t.resumeFrame response f).1.actors) :
    y ∈ (t.resumeFrame response f).2.filterMap stopping := by
  cases f with
  | stop r =>
      cases hf
      dsimp only [Tables.resumeFrame] at hlive ⊢
      split_ifs at hlive ⊢ with hr
      · exact (stopChildren_starting r _).2
      · exact absurd hlive hr
  | children r rest =>
      cases hf
      exact (stopChildren_starting r _).2
  | stopSingle r =>
      cases hf
      dsimp only [Tables.resumeFrame] at hlive ⊢
      split_ifs at hlive ⊢ with hr
      · rw [(leave_starting r).2]
        exact List.mem_singleton_self _
      · exact absurd hlive hr
  | unregistering r =>
      cases hf
      exact List.mem_singleton_self _
  | terminating r =>
      cases hf
      exact absurd rfl (Finset.ne_of_mem_erase hlive)
  | respawn | strategy | stopRemoteChild | stopRequest | restartRequest | spawnRequest
  | migrating => cases hf

/-- A strategy goes on with its stops before it starts anything. -/
theorem covers_resumeFrame [DecidableEq N] {response : Response} {f : Frame N V}
    (hsound : SoundFrame t f)
    (h : ∀ x ∈ starting f, ∀ y ∈ t.actors, t.lineage y = t.lineage x → y ∈ stopsFirst f)
    (hspawned : ∀ y ∈ t.actors, t.spawned y ≠ none)
    (hsame : ∀ x ∈ (t.resumeFrame response f).2.flatMap starting,
      ∀ y ∈ (t.resumeFrame response f).1.actors,
      (t.resumeFrame response f).1.lineage y = (t.resumeFrame response f).1.lineage x →
      y ∈ t.actors ∧ t.lineage y = t.lineage x) :
    Covers (t.resumeFrame response f).1 [] (t.resumeFrame response f).2 := by
  have hnone : stopsFirst f = [] → Covers (t.resumeFrame response f).1 []
      (t.resumeFrame response f).2 := by
    intro hstops
    refine covers_of_unmatched fun x hx y hy heq => ?_
    obtain ⟨hold, hlineage⟩ := hsame x hx y hy heq
    have hstarting : x ∈ starting f := (starting_resumeFrame response f).subset
      (List.mem_append_right _ hx)
    have hin := h x hstarting y hold hlineage
    rw [hstops] at hin
    exact List.not_mem_nil hin
  cases f with
  | strategy p stops remote plan =>
      cases stops with
      | nil => exact hnone rfl
      | cons c stops =>
          refine ⟨fun x hx => ?_, fun x hx y hy heq => ?_, trivial⟩
          · have hstop : starting (if remote = true then t.stopFrame c else .stop c) = [] := by
              split_ifs
              · exact stopFrame_starting c
              · rfl
            rw [hstop] at hx
            exact (List.not_mem_nil hx).elim
          · rcases List.mem_cons.1 (h x hx y hy heq) with rfl | hin
            · have hhere : c.systemId = t.id := by
                by_contra helse
                exact hspawned _ hy ((hsound.2.1 c List.mem_cons_self).elsewhere helse)
              refine .inl ?_
              unfold Tables.stopFrame
              rw [if_pos hhere]
              split_ifs <;> exact List.mem_singleton_self _
            · exact .inr hin
  | respawn | stop | children | stopSingle | unregistering | terminating | stopRemoteChild
  | stopRequest | restartRequest | spawnRequest | migrating => exact hnone rfl

theorem stopsFirst_of_startsAgain {response : Response} {f : Frame N V} {x : ActorId}
    (h : startsAgain t response f = some x) : stopsFirst f = [] := by
  cases f with
  | strategy p stops remote plan =>
      cases stops with
      | nil => rfl
      | cons c stops => cases h
  | respawn y m => rfl
  | stop | children | stopSingle | unregistering | terminating | stopRemoteChild | stopRequest
  | restartRequest | spawnRequest | migrating => cases h

end

/-! ## New instances -/

/-- An instance that is new continues the lineage of `replaced`, or that of no child. -/
def Born (t t' : Tables N V) (replaced : Option ActorId) : Prop :=
  ∀ y ∈ t'.actors, y ∉ t.actors → y = t.nextId ∧
    match replaced with
    | some x => t'.lineage y = t.lineage x
    | none => ∀ x, IsChild t x → t'.lineage y ≠ t.lineage x

section
variable {t : Tables N V}

theorem IsChild.lt (h : Sound t) {x : ActorId} (hx : IsChild t x) : x < t.nextId := by
  obtain ⟨m, -, hm, -⟩ := hx
  exact h.spawned_lt x m hm

/-- Whether an instance is a child is the same throughout its lineage. -/
theorem IsChild.lineage (h : Sound t) {x y : ActorId} (hx : IsChild t x)
    (heq : t.lineage x = t.lineage y) : IsChild t y := by
  obtain ⟨m, p, hm, hp⟩ := hx
  obtain ⟨mx, hmx, -, hparent⟩ := h.inherits x m hm
  cases hy : t.spawned y with
  | none =>
      rw [heq, h.lineage_unspawned y hy, hy] at hmx
      cases hmx
  | some my =>
      obtain ⟨m', hm', -, hparent'⟩ := h.inherits y my hy
      rw [heq, hm'] at hmx
      cases hmx
      rw [hparent', hp] at hparent
      obtain ⟨q, hq, -⟩ := Option.map_eq_some_iff.1 hparent
      exact ⟨my, q, hy, hq⟩

theorem born_same {t' : Tables N V} (h : ∀ y ∈ t'.actors, y ∈ t.actors)
    (replaced : Option ActorId) : Born t t' replaced :=
  fun y hy hnew => absurd (h y hy) hnew

theorem born_register (m : ActorMetadata N V) {first replaced : Option ActorId}
    (h : match replaced with
      | some x => first.getD t.nextId = t.lineage x
      | none => ∀ x, IsChild t x → first.getD t.nextId ≠ t.lineage x) :
    Born t (t.register m first) replaced := by
  intro y hy hnew
  have hself : y = t.nextId := (Finset.mem_insert.1 hy).resolve_right hnew
  have hlineage : (t.register m first).lineage y = first.getD t.nextId := by
    rw [hself]
    exact Function.update_self _ _ _
  refine ⟨hself, ?_⟩
  rw [hlineage]
  exact h

theorem born_spawnChild {p : ActorRef N} {actorClass : String} {options : SpawnOptions V}
    {first replaced : Option ActorId}
    (h : p.id ∈ t.actors → match replaced with
      | some x => first.getD t.nextId = t.lineage x
      | none => ∀ x, IsChild t x → first.getD t.nextId ≠ t.lineage x) :
    Born t (t.spawnChild p actorClass options first) replaced := by
  unfold Tables.spawnChild
  split_ifs with hp
  · exact born_register ⟨actorClass, options, some p⟩ (h hp)
  · exact fun _ hy hnew => absurd hy hnew

/-- A first instance begins a lineage of its own. -/
theorem nextId_ne_lineage (hsound : Sound t) {x : ActorId} (hx : IsChild t x) :
    (none : Option ActorId).getD t.nextId ≠ t.lineage x := by
  intro heq
  have hlt := hsound.lineage_lt x (hx.lt hsound)
  rw [← heq] at hlt
  exact absurd hlt (Nat.lt_irrefl _)

theorem actors_dropRemoteChild [DecidableEq N] (c p : ActorRef N) :
    (t.dropRemoteChild c p).actors = t.actors := by
  unfold Tables.dropRemoteChild
  split_ifs <;> rfl

theorem actors_removeRemoteChild [DecidableEq N] (x : ActorId) (p : ActorRef N) :
    (t.removeRemoteChild x p).actors = t.actors := by
  unfold Tables.removeRemoteChild
  split
  · rfl
  · exact actors_dropRemoteChild _ _

theorem actors_replaceRemoteChild [DecidableEq N] (e : RemoteChildEntry N V) :
    (t.replaceRemoteChild e).actors = t.actors := by
  unfold Tables.replaceRemoteChild
  dsimp only
  split_ifs <;> rfl

theorem actors_stopChildren [DecidableEq N] (r : ActorRef N) (rest : List (ActorRef N)) :
    (t.stopChildren r rest).1.actors = t.actors := by
  cases rest with
  | nil => exact detach_actors t r
  | cons c rest => rfl

theorem born_startAgain (hsound : Sound t) {response : Response} {x : ActorId}
    {m : ActorMetadata N V} (hm : t.spawned x = some m) :
    Born t (t.startAgain response x m) (startsAgain t response (.respawn x m)) := by
  unfold Tables.startAgain startsAgain
  dsimp only
  split_ifs with hsuccess
  · split
    · next hparent =>
        rw [hparent]
        refine born_register _ fun z hz heq => ?_
        obtain ⟨m', p, hm', hp⟩ := hz.lineage hsound heq.symm
        rw [hm] at hm'
        cases hm'
        rw [hparent] at hp
        cases hp
    · next p hparent =>
        rw [hparent]
        dsimp only [Option.bind_some]
        refine born_spawnChild fun hlive => ?_
        rw [if_pos ⟨hsuccess, hlive⟩]
        rfl
  · exact fun _ hy hnew => absurd hy hnew

theorem born_resumeFrame [DecidableEq N] (hsound : Sound t) (response : Response)
    {f : Frame N V} (hf : SoundFrame t f) :
    Born t (t.resumeFrame response f).1 (startsAgain t response f) := by
  cases f with
  | stop r =>
      dsimp only [Tables.resumeFrame]
      split_ifs
      · exact born_same (fun _ hy => actors_stopChildren r _ ▸ hy) _
      · exact fun _ hy hnew => absurd hy hnew
  | children r rest => exact born_same (fun _ hy => actors_stopChildren r _ ▸ hy) _
  | stopSingle r =>
      dsimp only [Tables.resumeFrame]
      split_ifs
      · exact born_same (fun _ hy => detach_actors t r ▸ hy) _
      · exact fun _ hy hnew => absurd hy hnew
  | unregistering r => exact fun _ hy hnew => absurd hy hnew
  | terminating r => exact born_same (fun _ hy => Finset.mem_of_mem_erase hy) _
  | respawn x m => exact born_startAgain hsound hf
  | strategy p stops remote plan =>
      cases stops with
      | cons c stops => exact fun _ hy hnew => absurd hy hnew
      | nil =>
          cases plan with
          | nil => exact fun _ hy hnew => absurd hy hnew
          | cons b plan =>
              cases b with
              | onNode x m =>
                  dsimp only [Tables.resumeFrame, Tables.startPlanned, startsAgain]
                  split_ifs with hboth
                  · exact born_spawnChild fun _ => rfl
                  · exact fun _ hy hnew => absurd hy hnew
              | remote e =>
                  dsimp only [Tables.resumeFrame, Tables.startPlanned]
                  split_ifs
                  · exact fun _ hy hnew => absurd hy hnew
                  · exact fun _ hy hnew => absurd hy hnew
  | stopRemoteChild | spawnRequest =>
      dsimp only [Tables.resumeFrame]
      split <;> exact fun _ hy hnew => absurd hy hnew
  | stopRequest e =>
      dsimp only [Tables.resumeFrame]
      split
      · exact fun _ hy hnew => absurd hy hnew
      · exact born_same (fun _ hy => actors_dropRemoteChild e.childRef e.parentRef ▸ hy) _
  | restartRequest e =>
      dsimp only [Tables.resumeFrame]
      split
      · exact born_same (fun _ hy => actors_replaceRemoteChild e ▸ hy) _
      · exact fun _ hy hnew => absurd hy hnew
  | migrating x =>
      dsimp only [Tables.resumeFrame]
      split
      · exact born_same (fun _ hy => Finset.mem_of_mem_erase hy) _
      · exact fun _ hy hnew => absurd hy hnew

end

end Libeam.Proofs.RestartFrames
