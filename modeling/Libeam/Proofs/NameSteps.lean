import Libeam.Migration.Naming
import Libeam.Proofs.HostSteps
/-!
# The names of the instances of one node

A step gives a name to the instance that it spawns and to no other one, and unregisters a
name for an instance that has it.
-/

namespace Libeam.Proofs.NameSteps

open Libeam.System Libeam.System.Lifecycle Migration History

variable {V : Type} {l l' : Lifecycle V}

/-! ## Instances of one node -/

/-- The tables in which an instance has its name and its children. -/
structure Book where
  actors : Finset ActorId
  nextId : ActorId
  actorMetadata : ActorId → Option InstanceMetadata
  childOrder : ActorId → List ChildRef

def book (l : Lifecycle V) : Book :=
  ⟨l.node.actors, l.node.nextId, l.actorMetadata, l.childOrder⟩

namespace Book

def nameOf (b : Book) (id : ActorId) : Option String :=
  (b.actorMetadata id).bind (·.options.name)

/-- Instances come with the next id, and keep their metadata. -/
structure Grows (b b' : Book) : Prop where
  actors : ∀ id ∈ b'.actors, id ∈ b.actors ∨ id = b.nextId ∧ b.nextId < b'.nextId
  nextId : b.nextId ≤ b'.nextId
  metadata : ∀ id ∈ b.actors, id ∈ b'.actors → id ≠ b.nextId →
    b'.actorMetadata id = b.actorMetadata id
  children : ∀ parent child, ChildRef.onNode child ∈ b'.childOrder parent →
    ChildRef.onNode child ∈ b.childOrder parent ∨ child = b.nextId ∧ b.nextId < b'.nextId

theorem Grows.refl (b : Book) : Grows b b :=
  ⟨fun _ => Or.inl, Nat.le_refl _, fun _ _ _ _ => rfl, fun _ _ => Or.inl⟩

/-- The ids in the tables are used up. -/
structure Bounded (b : Book) : Prop where
  actors : ∀ id ∈ b.actors, id < b.nextId
  children : ∀ parent child, ChildRef.onNode child ∈ b.childOrder parent → child < b.nextId

/-- A frame that has not looked at its instance yet has its name; children are no future
instances. -/
def FrameOk (b : Book) (frame : StopFrame) : Prop :=
  match frame.phase with
  | .called =>
      frame.id < b.nextId ∧ (frame.id ∈ b.actors → frame.name = b.nameOf frame.id)
  | .children rest => ∀ child, ChildRef.onNode child ∈ rest → child < b.nextId
  | _ => True

variable {b b' : Book}

theorem Bounded.grows (h : Bounded b) (hgrows : Grows b b') : Bounded b' where
  actors := by
    intro id hid
    obtain hold | ⟨rfl, hlt⟩ := hgrows.actors id hid
    · exact (h.actors id hold).trans_le hgrows.nextId
    · exact hlt
  children := by
    intro parent child hchild
    obtain hold | ⟨rfl, hlt⟩ := hgrows.children parent child hchild
    · exact (h.children parent child hold).trans_le hgrows.nextId
    · exact hlt

/-- An instance that was there keeps its name. -/
theorem Grows.nameOf (hgrows : Grows b b') (h : Bounded b) {id : ActorId} (hid : id ∈ b.actors)
    (hid' : id ∈ b'.actors) : b'.nameOf id = b.nameOf id := by
  rw [Book.nameOf, Book.nameOf, hgrows.metadata id hid hid' (Nat.ne_of_lt (h.actors id hid))]

theorem FrameOk.grows {frame : StopFrame} (hframe : FrameOk b frame) (h : Bounded b)
    (hgrows : Grows b b') : FrameOk b' frame := by
  unfold FrameOk at hframe ⊢
  split
  next =>
    rename_i heq
    rw [heq] at hframe
    refine ⟨hframe.1.trans_le hgrows.nextId, fun hlive => ?_⟩
    obtain hold | ⟨hnew, -⟩ := hgrows.actors _ hlive
    · rw [hframe.2 hold, hgrows.nameOf h hold hlive]
    · exact absurd hnew (Nat.ne_of_lt hframe.1)
  next rest heq =>
    rw [heq] at hframe
    exact fun child hchild => (hframe child hchild).trans_le hgrows.nextId
  next => trivial

end Book

open Book

/-- What a node keeps about names. -/
structure Named (l : Lifecycle V) : Prop where
  bounded : Bounded (book l)
  frames : ∀ call ∈ l.calls, ∀ frame ∈ call.frames, FrameOk (book l) frame

/-- A frame that a call of this moment may have. -/
structure Entered (l : Lifecycle V) (frame : StopFrame) : Prop where
  ok : FrameOk (book l) frame
  carries : ∀ name rest, frame.phase = .children rest → frame.name = some name → name ≠ "" →
    l.Carries frame.id name

/-- What a step makes of the names. -/
structure Moves (l l' : Lifecycle V) : Prop where
  grows : Grows (book l) (book l')
  frames : ∀ call ∈ l'.calls, ∀ frame ∈ call.frames,
    (∃ call ∈ l.calls, frame ∈ call.frames) ∨ Entered l frame

theorem Moves.of_calls (hgrows : Grows (book l) (book l')) (hcalls : l'.calls = l.calls) :
    Moves l l' :=
  ⟨hgrows, fun call hcall _ hframe => Or.inl ⟨call, hcalls ▸ hcall, hframe⟩⟩

theorem Moves.refl (l : Lifecycle V) : Moves l l := .of_calls (.refl _) rfl

theorem Named.moves (h : Named l) (hmoves : Moves l l') : Named l' where
  bounded := h.bounded.grows hmoves.grows
  frames := by
    intro call hcall frame hframe
    obtain ⟨old, hold, hin⟩ | hentered := hmoves.frames call hcall frame hframe
    · exact (h.frames old hold frame hin).grows h.bounded hmoves.grows
    · exact hentered.ok.grows h.bounded hmoves.grows

/-- Only the instance that is spawned gets a name. -/
theorem Moves.carries (hmoves : Moves l l') (h : Named l) {id : ActorId} {name : String}
    (hcarries : l'.Carries id name) :
    l.Carries id name ∨ l.registers l' = some (name, id) := by
  obtain ⟨hname, ⟨hlive, hnameOf⟩ | ⟨call, hcall, frame, hframe, rfl, hnamed, rest, hphase⟩⟩ :=
    hcarries
  · obtain hold | ⟨hnew, hlt⟩ := hmoves.grows.actors id hlive
    · refine Or.inl ⟨hname, Or.inl ⟨hold, ?_⟩⟩
      have hkept := hmoves.grows.nameOf h.bounded hold hlive
      change l'.nameOf id = l.nameOf id at hkept
      rw [← hkept, hnameOf]
    · right
      change id = l.node.nextId at hnew
      subst hnew
      rw [registers, if_pos (show l.node.nextId < l'.node.nextId from hlt), hnameOf]
      exact if_neg hname
  · left
    obtain ⟨old, hold, hin⟩ | hentered := hmoves.frames call hcall frame hframe
    · exact ⟨hname, Or.inr ⟨old, hold, frame, hin, rfl, hnamed, rest, hphase⟩⟩
    · exact hentered.carries name rest hphase hnamed hname

/-! ## Stops -/

theorem grows_detach (l : Lifecycle V) (id : ActorId) : Grows (book l) (book (l.detach id)) := by
  unfold detach
  split
  · exact .refl _
  · split_ifs
    · refine ⟨fun _ => Or.inl, Nat.le_refl _, fun _ _ _ _ => rfl, fun parent child hchild => ?_⟩
      left
      simp only [book, Function.update_apply] at hchild
      split_ifs at hchild with hparent
      · rw [hparent]
        exact List.mem_of_mem_erase hchild
      · exact hchild
    · exact .refl _

theorem calls_detach (l : Lifecycle V) (id : ActorId) : (l.detach id).calls = l.calls := by
  unfold detach
  split
  · rfl
  · split_ifs <;> rfl

/-- The loop of a stop, from wherever it is. -/
structure StopsChildren (l : Lifecycle V) (id : ActorId) (result : Lifecycle V × List StopFrame) :
    Prop where
  grows : Grows (book l) (book result.1)
  calls : result.1.calls = l.calls
  entered : ∀ frame ∈ result.2, Entered l frame
  unregisters : ∀ name id', unregistering result.2 = some (name, id') →
    id' = id ∧ l.Carries id name

theorem stopsChildren {id : ActorId} {name : Option String} {rest : List ChildRef}
    (hcarries : ∀ n, name = some n → n ≠ "" → l.Carries id n)
    (hrest : ∀ child, ChildRef.onNode child ∈ rest → child < l.node.nextId) :
    StopsChildren l id (l.stopChildren id name rest) := by
  have hloop (rest' : List ChildRef) (hsub : ∀ child, ChildRef.onNode child ∈ rest' →
      child < l.node.nextId) : Entered l ⟨id, name, .children rest'⟩ :=
    ⟨hsub, fun n _ _ hn hne => hcarries n hn hne⟩
  unfold stopChildren
  split
  next child rest' =>
    refine ⟨.refl _, rfl, fun frame hframe => ?_, nofun⟩
    rw [List.mem_cons, List.mem_singleton] at hframe
    obtain rfl | rfl := hframe
    · exact ⟨⟨hrest child List.mem_cons_self, fun _ => rfl⟩, nofun⟩
    · exact hloop rest' fun child' hchild' => hrest child' (List.mem_cons_of_mem _ hchild')
  next child rest' =>
    refine ⟨.refl _, rfl, fun frame hframe => ?_, nofun⟩
    rw [List.mem_singleton.1 hframe]
    exact hloop rest' fun child' hchild' => hrest child' (List.mem_cons_of_mem _ hchild')
  next =>
    dsimp only
    split_ifs with hname
    · refine ⟨grows_detach l id, calls_detach l id, fun frame hframe => ?_, fun n id' hun => ?_⟩
      · rw [List.mem_singleton.1 hframe]
        exact ⟨trivial, nofun⟩
      · obtain ⟨n', hn', hpair⟩ := Option.map_eq_some_iff.1 hun
        injection hpair with hn hid
        subst hn hid
        rw [hn'] at hname
        exact ⟨rfl, hcarries n' hn' (by simpa using hname)⟩
    · refine ⟨grows_detach l id, calls_detach l id, fun frame hframe => ?_, nofun⟩
      rw [List.mem_singleton.1 hframe]
      exact ⟨trivial, nofun⟩

theorem call_unregisters (l : Lifecycle V) (frames : Lifecycle V × List StopFrame)
    (respawn : Option InstanceMetadata) :
    ((l.call frames respawn).calls[l.calls.length]?.bind fun call => unregistering call.frames) =
      unregistering frames.2 := by
  rw [call, List.getElem?_append_right (Nat.le_refl _), Nat.sub_self]
  rfl

/-- What a step of a node does with names. -/
structure StepNames (l l' : Lifecycle V) (unregisters : Option (String × ActorId)) : Prop where
  moves : Moves l l'
  carries : ∀ name id, unregisters = some (name, id) → l.Carries id name

/-- Nothing is called, so nothing is unregistered. -/
theorem stepNames_refl (l : Lifecycle V) :
    StepNames l l (l.calls[l.calls.length]?.bind fun call => unregistering call.frames) := by
  rw [List.getElem?_eq_none (Nat.le_refl _), Option.bind_none]
  exact ⟨.refl l, nofun⟩

/-- The call that a stop starts. -/
theorem StopsChildren.call {frames : Lifecycle V × List StopFrame} {id : ActorId}
    (h : StopsChildren l id frames) (respawn : Option InstanceMetadata) :
    StepNames l (l.call frames respawn)
      ((l.call frames respawn).calls[l.calls.length]?.bind
        fun call => unregistering call.frames) := by
  refine ⟨⟨h.grows, fun call hcall frame hframe => ?_⟩, fun name id' hun => ?_⟩
  · obtain hold | hnew := List.mem_append.1 hcall
    · exact Or.inl ⟨call, hold, hframe⟩
    · rw [List.mem_singleton.1 hnew] at hframe
      exact Or.inr (h.entered frame hframe)
  · rw [call_unregisters] at hun
    obtain ⟨rfl, hcarries⟩ := h.unregisters name id' hun
    exact hcarries

section

variable {id : ActorId} {name : Option String}

theorem names_of_live (hrefers : id ∈ l.node.actors → name = l.nameOf id)
    (hlive : id ∈ l.node.actors) (n : String) (hn : name = some n) (hne : n ≠ "") :
    l.Carries id n :=
  ⟨hne, Or.inl ⟨hlive, (hrefers hlive).symm.trans hn⟩⟩

theorem stepNames_stop (h : Named l) (hrefers : id ∈ l.node.actors → name = l.nameOf id) :
    StepNames l (l.stop id name)
      ((l.stop id name).calls[l.calls.length]?.bind fun call => unregistering call.frames) := by
  unfold stop
  split_ifs with hlive
  · exact (stopsChildren (names_of_live hrefers hlive) (h.bounded.children id)).call none
  · exact stepNames_refl l

theorem stepNames_stopSingle (hrefers : id ∈ l.node.actors → name = l.nameOf id) :
    StepNames l (l.stopSingle id name)
      ((l.stopSingle id name).calls[l.calls.length]?.bind
        fun call => unregistering call.frames) := by
  unfold stopSingle
  split_ifs with hlive
  · exact (stopsChildren (names_of_live hrefers hlive)
      fun _ h => absurd h List.not_mem_nil).call none
  · exact stepNames_refl l

theorem stepNames_restart (hrefers : id ∈ l.node.actors → name = l.nameOf id) :
    StepNames l (l.restart id name)
      ((l.restart id name).calls[l.calls.length]?.bind
        fun call => unregistering call.frames) := by
  unfold restart
  split
  next => exact stepNames_refl l
  next metadata _ =>
    split_ifs with hlive
    · exact (stopsChildren (names_of_live hrefers hlive)
        fun _ h => absurd h List.not_mem_nil).call (some metadata)
    · have hgone : StopsChildren l id (l, []) := ⟨.refl _, rfl, nofun, nofun⟩
      exact hgone.call (some metadata)

end

/-! ## Spawns and removals -/

/-- The next id is given to an instance, which may have a parent. -/
theorem grows_of_spawned {metadata : Option InstanceMetadata}
    (hactors : l'.node.actors = insert l.node.nextId l.node.actors)
    (hnextId : l'.node.nextId = l.node.nextId + 1)
    (hmetadata : l'.actorMetadata = Function.update l.actorMetadata l.node.nextId metadata)
    (hchildren : ∀ parent child, ChildRef.onNode child ∈ l'.childOrder parent →
      ChildRef.onNode child ∈ l.childOrder parent ∨ child = l.node.nextId) :
    Grows (book l) (book l') := by
  have hlt : l.node.nextId < l'.node.nextId := hnextId ▸ Nat.lt_succ_self _
  refine ⟨fun id hid => ?_, Nat.le_of_lt hlt, fun id _ _ hne => ?_, fun parent child hchild => ?_⟩
  · change id ∈ l'.node.actors at hid
    rw [hactors] at hid
    exact (Finset.mem_insert.1 hid).elim (fun heq => Or.inr ⟨heq, hlt⟩) Or.inl
  · change l'.actorMetadata id = l.actorMetadata id
    rw [hmetadata]
    exact Function.update_of_ne hne _ _
  · exact (hchildren parent child hchild).imp_right fun heq => ⟨heq, hlt⟩

/-- An instance leaves the tables, children of others or not. -/
theorem grows_of_removed {id : ActorId} (hactors : l'.node.actors = l.node.actors.erase id)
    (hnextId : l'.node.nextId = l.node.nextId)
    (hmetadata : l'.actorMetadata = Function.update l.actorMetadata id none)
    (hchildren : l'.childOrder = l.childOrder) : Grows (book l) (book l') := by
  refine ⟨fun id' hid' => ?_, hnextId.ge, fun id' _ hid' _ => ?_, fun parent child hchild => ?_⟩
  · change id' ∈ l'.node.actors at hid'
    rw [hactors] at hid'
    exact Or.inl (Finset.mem_of_mem_erase hid')
  · change id' ∈ l'.node.actors at hid'
    rw [hactors] at hid'
    change l'.actorMetadata id' = l.actorMetadata id'
    rw [hmetadata]
    exact Function.update_of_ne (Finset.ne_of_mem_erase hid') _ _
  · left
    change ChildRef.onNode child ∈ l'.childOrder parent at hchild
    rw [hchildren] at hchild
    exact hchild

theorem log_spawn (s : Node V) (config : Mailbox.MailboxConfig) (initThrows : Bool) :
    log (s.spawn config initThrows) = log (s.install config) := by
  unfold Node.spawn
  split_ifs
  · rfl
  · exact log_scheduleProcessMailbox _ _

theorem grows_spawn (l : Lifecycle V) (options : SpawnOptions) (initThrows : Bool) :
    Grows (book l) (book (l.spawn options initThrows)) := by
  have hlog := log_spawn l.node options.mailbox initThrows
  exact grows_of_spawned (congrArg Log.actors hlog) (congrArg Log.nextId hlog) rfl
    fun _ _ => Or.inl

theorem grows_spawnChild (l : Lifecycle V) (parent : ActorId) (options : SpawnOptions)
    (initThrows : Bool) : Grows (book l) (book (l.spawnChild parent options initThrows)) := by
  have hlog := log_spawn l.node options.mailbox initThrows
  unfold spawnChild
  split_ifs
  · refine grows_of_spawned (congrArg Log.actors hlog) (congrArg Log.nextId hlog) rfl
      fun parent' child hchild => ?_
    dsimp only at hchild
    rw [Function.update_apply] at hchild
    split_ifs at hchild with hparent
    · rw [hparent]
      refine (List.mem_append.1 hchild).imp_right fun hnew => ?_
      injection List.mem_singleton.1 hnew
    · exact Or.inl hchild
  · exact .refl _

theorem calls_spawnChild (l : Lifecycle V) (parent : ActorId) (options : SpawnOptions)
    (initThrows : Bool) : (l.spawnChild parent options initThrows).calls = l.calls := by
  unfold spawnChild
  split_ifs <;> rfl

theorem moves_remove (l : Lifecycle V) (id : ActorId) : Moves l (l.remove id) :=
  .of_calls (grows_of_removed rfl rfl rfl rfl) rfl

theorem grows_respawn (l : Lifecycle V) (metadata : InstanceMetadata) (initThrows : Bool) :
    Grows (book l) (book (l.respawn metadata initThrows)) := by
  unfold respawn
  split
  · exact grows_spawn l _ initThrows
  · exact grows_spawnChild l _ _ initThrows

theorem calls_respawn (l : Lifecycle V) (metadata : InstanceMetadata) (initThrows : Bool) :
    (l.respawn metadata initThrows).calls = l.calls := by
  unfold respawn
  split
  · rfl
  · exact calls_spawnChild l _ _ initThrows

/-- What a node does with messages is nothing to its instances. -/
theorem moves_nodeStep {a : Action V} (hst : l.nodeStep a = some l') : Moves l l' := by
  have hsame : ∃ s, l.node.step a = some s ∧ changesInstances a = false ∧
      l'.calls = l.calls ∧ book l' = { book l with actors := s.actors, nextId := s.nextId } := by
    unfold nodeStep at hst
    split at hst
    next => cases hst
    next => cases hst
    next => cases hst
    next error =>
      obtain ⟨s, hs, rfl⟩ := Option.map_eq_some_iff.1 hst
      refine ⟨s, hs, rfl, ?_, ?_⟩
      · dsimp only
        split <;> rfl
      · rw [book, book]
        dsimp only
        split <;> rfl
    next hspawn hremove _ _ =>
      obtain ⟨s, hs, rfl⟩ := Option.map_eq_some_iff.1 hst
      refine ⟨s, hs, ?_, rfl, rfl⟩
      cases a with
      | spawn config initThrows => exact absurd rfl (hspawn config initThrows)
      | remove id => exact absurd rfl (hremove id)
      | _ => rfl
  obtain ⟨s, hs, hchanges, hcalls, hbook⟩ := hsame
  refine .of_calls ?_ hcalls
  rw [hbook]
  cases logged_step hs with
  | idle _ actors _ nextId | accepted _ _ _ _ _ actors _ nextId =>
      rw [actors, nextId]
      exact .refl _
  | removed | spawned => cases hchanges

/-! ## A step of one node -/

/-- The counts of the supervisor have nothing to do with names. -/
theorem StepNames.of_counts {supervisor : Supervisor} {unregisters : Option (String × ActorId)}
    (h : StepNames { l with supervisor := supervisor } l' unregisters) :
    StepNames l l' unregisters :=
  ⟨⟨h.moves.grows, fun call hcall frame hframe =>
    (h.moves.frames call hcall frame hframe).imp_right fun e => ⟨e.ok, e.carries⟩⟩, h.carries⟩

theorem stepNames_superviseCrash (h : Named l) {now : Nat} (hst : l.superviseCrash now = some l') :
    StepNames l l' (l'.calls[l.calls.length]?.bind fun call => unregistering call.frames) := by
  unfold superviseCrash at hst
  split at hst
  next id task rest hstack =>
    dsimp only at hst
    split_ifs at hst
    · cases hst
      exact stepNames_refl l
    · cases hst
      have hcounts : Named { l with supervisor := (l.supervisor.handleCrash id now).1 } :=
        ⟨h.bounded, h.frames⟩
      split
      · exact (stepNames_restart fun _ => rfl).of_counts
      · exact (stepNames_stop hcounts fun _ => rfl).of_counts
  next => cases hst

theorem carries_of_frame {call : StopCall} {frame : StopFrame} {rest : List ChildRef}
    {name : String} (hcall : call ∈ l.calls) (hframe : frame ∈ call.frames)
    (hphase : frame.phase = .children rest) (hname : frame.name = some name) (hne : name ≠ "") :
    l.Carries frame.id name :=
  ⟨hne, Or.inr ⟨call, hcall, frame, hframe, rfl, hname, rest, hphase⟩⟩

/-- The innermost frame of a call goes on. -/
theorem stopsChildren_resumeFrame (h : Named l) {call : StopCall} {frame : StopFrame}
    (hcall : call ∈ l.calls) (hframe : frame ∈ call.frames) :
    StopsChildren l frame.id (l.resumeFrame frame) := by
  have hok := h.frames call hcall frame hframe
  unfold FrameOk at hok
  unfold resumeFrame
  split
  next hphase =>
    rw [hphase] at hok
    split_ifs with hlive
    · exact stopsChildren (names_of_live hok.2 hlive) (h.bounded.children frame.id)
    · exact ⟨.refl _, rfl, fun _ h => absurd h List.not_mem_nil, nofun⟩
  next rest hphase =>
    rw [hphase] at hok
    exact stopsChildren (fun n hn hne => carries_of_frame hcall hframe hphase hn hne) hok
  next =>
    refine ⟨.refl _, rfl, fun frame' hframe' => ?_, nofun⟩
    rw [List.mem_singleton.1 hframe']
    exact ⟨trivial, nofun⟩
  next =>
    exact ⟨(moves_remove l frame.id).grows, rfl, fun _ h => absurd h List.not_mem_nil, nofun⟩

theorem stepNames_stopResumes (h : Named l) {index : Nat} {initThrows : Bool}
    (hst : l.stopResumes index initThrows = some l') :
    StepNames l l' (l.unregisters l' (.stopResumes index initThrows)) := by
  have hdone : Moves l { l with calls := l.calls.eraseIdx index } :=
    ⟨.refl _, fun call hcall frame hframe =>
      Or.inl ⟨call, List.mem_of_mem_eraseIdx hcall, hframe⟩⟩
  delta unregisters
  dsimp only
  unfold stopResumes at hst
  split at hst
  next => cases hst
  next frame outer respawn hget =>
    cases hst
    have hcall := List.mem_of_getElem? hget
    have hresumes := stopsChildren_resumeFrame h hcall List.mem_cons_self
    rw [hget]
    refine ⟨⟨hresumes.grows, fun call hin frame' hframe' => ?_⟩, fun name id hun => ?_⟩
    · obtain hold | rfl := List.mem_or_eq_of_mem_set hin
      · exact Or.inl ⟨call, hold, hframe'⟩
      · obtain hnew | hout := List.mem_append.1 hframe'
        · exact Or.inr (hresumes.entered frame' hnew)
        · exact Or.inl ⟨_, hcall, List.mem_cons_of_mem _ hout⟩
    · obtain ⟨rfl, hcarries⟩ := hresumes.unregisters name id hun
      exact hcarries
  next hget =>
    cases hst
    rw [hget]
    exact ⟨hdone, fun _ _ hun => by cases hun⟩
  next metadata hget =>
    cases hst
    rw [hget]
    have hgrows := grows_respawn { l with calls := l.calls.eraseIdx index } metadata initThrows
    refine ⟨⟨hgrows, fun call hcall frame hframe => ?_⟩, fun _ _ hun => by cases hun⟩
    rw [calls_respawn] at hcall
    exact hdone.frames call hcall frame hframe

/-- A step of a node unregisters a name for an instance that carries it. -/
theorem stepNames_step (h : Named l) {a : LifecycleAction V} (hrefers : l.Refers a)
    (hst : l.step a = some l') : StepNames l l' (l.unregisters l' a) := by
  cases a with
  | node b => exact ⟨moves_nodeStep hst, nofun⟩
  | spawn options initThrows =>
      cases hst
      exact ⟨.of_calls (grows_spawn l options initThrows) rfl, nofun⟩
  | spawnChild parent options initThrows =>
      cases hst
      exact ⟨.of_calls (grows_spawnChild l parent options initThrows)
        (calls_spawnChild l parent options initThrows), nofun⟩
  | stop id name =>
      cases hst
      exact stepNames_stop h hrefers
  | stopSingle id name =>
      cases hst
      exact stepNames_stopSingle hrefers
  | restart id name =>
      cases hst
      exact stepNames_restart hrefers
  | superviseCrash now => exact stepNames_superviseCrash h hst
  | stopResumes index initThrows => exact stepNames_stopResumes h hst
  | stopRejects index =>
      simp only [Lifecycle.step, stopRejects] at hst
      split_ifs at hst
      cases hst
      exact ⟨⟨.refl _, fun call hcall frame hframe =>
        Or.inl ⟨call, List.mem_of_mem_eraseIdx hcall, hframe⟩⟩, nofun⟩

end Libeam.Proofs.NameSteps
