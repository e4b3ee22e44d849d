import Libeam.Proofs.RemoteLinkTables
/-!
# Links and the messages about them

Every entry, every linker and every message is of a link that has been made, and a node
has sent an exit only for an actor that has begun to end.
-/

namespace Libeam.Proofs.RemoteLinkMessages

open Libeam.System (ActorId)
open Supervision (ActorRef)
open Monitoring RemoteLinkTables

variable {N : Type} {callbacks : Callbacks N} {net net' : LinkNetwork N} {n k : N}
  {v v' : LinkNode N} {out : Outgoing N} {e : RemoteLinkEntry N}

/-! ## What holds between the nodes -/

structure Made (net : LinkNetwork N) (e : RemoteLinkEntry N) : Prop where
  id : e.linkRef.id < net.nextRef
  actor : e.localActorRef.id = e.linkRef.actor1Id
  remote : e.remoteNodeId ≠ e.localActorRef.systemId
  linker : e.localActorRef.id < (net.node e.localActorRef.systemId).nextId
  linked : e.remoteActorId < (net.node e.remoteNodeId).nextId

/-- The linker is known to the node of the linked actor. -/
def Known (net : LinkNetwork N) (k : N) (x : ActorId) (info : RemoteLinkerInfo N) : Prop :=
  ∃ e ∈ net.made, e.linkRef.id = info.linkRefId ∧ e.localActorRef.systemId = info.linkerNodeId ∧
    e.localActorRef.id = info.linkerActorId ∧ e.remoteNodeId = k ∧ e.remoteActorId = x

/-- A message from one node to another is about a link between them. -/
def Fits (net : LinkNetwork N) (sender receiver : N) : LinkMessage N → Prop
  | .add l linkerNodeId linkerActorId x _ =>
      linkerNodeId = sender ∧
        ∃ e ∈ net.made, e.linkRef.id = l ∧ e.localActorRef.systemId = sender ∧
          e.localActorRef.id = linkerActorId ∧ e.remoteNodeId = receiver ∧ e.remoteActorId = x
  | .added l x alreadyDead =>
      ∃ e ∈ net.made, e.linkRef.id = l ∧ e.localActorRef.systemId = receiver ∧
        e.remoteNodeId = sender ∧ e.remoteActorId = x ∧
        (alreadyDead = true → (net.node sender).ended x ≠ none)
  | .remove l x =>
      ∃ e ∈ net.made, e.linkRef.id = l ∧ e.localActorRef.systemId = sender ∧
        e.remoteNodeId = receiver ∧ e.remoteActorId = x ∧
        (l ∈ net.unlinked ∨ (net.node sender).ended e.localActorRef.id ≠ none)
  | .exit l x _ =>
      (net.node sender).ended x ≠ none ∧ ∃ e ∈ net.made, e.linkRef.id = l ∧
        (e.localActorRef.systemId = sender ∧ e.remoteNodeId = receiver ∧
            e.localActorRef.id = x ∨
          e.localActorRef.systemId = receiver ∧ e.remoteNodeId = sender ∧ e.remoteActorId = x)

/-- An actor has been told because of this link once, the link is gone, and the actor at
its other end has begun to end. -/
def Heard (net : LinkNetwork N) (k : N) (v : LinkNode N) (l : RefId) : Prop :=
  told v l = 1 ∧ ∃ e ∈ net.made, e.linkRef.id = l ∧ e.localActorRef.systemId = k ∧
    e ∉ v.remoteLinks ∧ (net.node e.remoteNodeId).ended e.remoteActorId ≠ none

structure Wired (net : LinkNetwork N) : Prop where
  tables : ∀ k, Tables k (net.node k)
  nextRef : ∀ k, (net.node k).nextRef ≤ net.nextRef
  made : ∀ e ∈ net.made, Made net e
  unique : ∀ e ∈ net.made, ∀ e' ∈ net.made, e.linkRef.id = e'.linkRef.id → e = e'
  entries : ∀ k, ∀ e ∈ (net.node k).remoteLinks, e ∈ net.made ∧ e.localActorRef.systemId = k
  linkers : ∀ k x, ∀ info ∈ (net.node k).remoteLinkers x, Known net k x info
  channels : ∀ sender receiver, ∀ message ∈ net.channel sender receiver,
    Fits net sender receiver message
  heard : ∀ k l, told (net.node k) l ≠ 0 → Heard net k (net.node k) l

/-! ## Time passes -/

/-- Actors come, end and go. -/
structure Goes (v v' : LinkNode N) : Prop where
  nextId : v.nextId ≤ v'.nextId
  actors : ∀ x < v.nextId, x ∈ v'.actors → x ∈ v.actors
  ended : ∀ x how, v.ended x = some how → v'.ended x = some how

/-- Nothing that has happened is undone. -/
structure Later (net net' : LinkNetwork N) : Prop where
  made : ∀ e ∈ net.made, e ∈ net'.made
  unlinked : ∀ l ∈ net.unlinked, l ∈ net'.unlinked
  nextRef : net.nextRef ≤ net'.nextRef
  goes : ∀ k, Goes (net.node k) (net'.node k)

theorem Goes.refl (v : LinkNode N) : Goes v v := ⟨le_rfl, fun _ _ hx => hx, fun _ _ hx => hx⟩

theorem Goes.ended_ne (h : Goes v v') {x : ActorId} (hx : v.ended x ≠ none) :
    v'.ended x ≠ none := by
  obtain ⟨how, hhow⟩ := Option.ne_none_iff_exists'.1 hx
  rw [h.ended x how hhow]
  exact Option.some_ne_none how

namespace Later

theorem linker (h : Later net net') (hm : Made net e) : Made net' e where
  id := hm.id.trans_le h.nextRef
  actor := hm.actor
  remote := hm.remote
  linker := hm.linker.trans_le (h.goes _).nextId
  linked := hm.linked.trans_le (h.goes _).nextId

theorem known (h : Later net net') {x : ActorId} {info : RemoteLinkerInfo N}
    (hk : Known net k x info) : Known net' k x info := by
  obtain ⟨e, he, hrest⟩ := hk
  exact ⟨e, h.made e he, hrest⟩

theorem fits (h : Later net net') {sender receiver : N} {message : LinkMessage N}
    (hf : Fits net sender receiver message) : Fits net' sender receiver message := by
  cases message with
  | add l linkerNodeId linkerActorId x trapExit =>
      obtain ⟨hlinker, e, he, hrest⟩ := hf
      exact ⟨hlinker, e, h.made e he, hrest⟩
  | added l x alreadyDead =>
      obtain ⟨e, he, hid, hreceiver, hsender, hx, hdead⟩ := hf
      exact ⟨e, h.made e he, hid, hreceiver, hsender, hx,
        fun hsome => (h.goes sender).ended_ne (hdead hsome)⟩
  | remove l x =>
      obtain ⟨e, he, hid, hsender, hreceiver, hx, hwhy⟩ := hf
      exact ⟨e, h.made e he, hid, hsender, hreceiver, hx,
        hwhy.imp (h.unlinked l) (h.goes sender).ended_ne⟩
  | exit l x reason =>
      obtain ⟨hended, e, he, hrest⟩ := hf
      exact ⟨(h.goes sender).ended_ne hended, e, h.made e he, hrest⟩

theorem heard (h : Later net net') {l : RefId} (hh : Heard net k v l) (htold : told v' l = told v l)
    (hentries : ∀ e ∈ net.made, e ∈ v'.remoteLinks → e ∈ v.remoteLinks) :
    Heard net' k v' l := by
  obtain ⟨honce, e, he, hid, hk, hgone, hended⟩ := hh
  exact ⟨htold.trans honce, e, h.made e he, hid, hk, fun hmem => hgone (hentries e he hmem),
    (h.goes _).ended_ne hended⟩

end Later

/-! ## The state of one node and what it sends -/

variable [DecidableEq N]

theorem node_put (net : LinkNetwork N) (k k' : N) (result : LinkNode N × Outgoing N) :
    (net.put k result).node k' = if k' = k then result.1 else net.node k' :=
  Function.update_apply ..

@[simp] theorem node_put_self (net : LinkNetwork N) (k : N) (result : LinkNode N × Outgoing N) :
    (net.put k result).node k = result.1 := Function.update_self ..

theorem mem_channel_put (net : LinkNetwork N) (k : N) (result : LinkNode N × Outgoing N)
    (sender receiver : N) (message : LinkMessage N) :
    message ∈ (net.put k result).channel sender receiver ↔
      message ∈ net.channel sender receiver ∨ sender = k ∧ (receiver, message) ∈ result.2 := by
  unfold LinkNetwork.put
  dsimp only
  split_ifs with hk
  · simp [hk]
  · simp [hk]

theorem later_put (hg : Goes (net.node k) v') : Later net (net.put k (v', out)) where
  made := fun _ he => he
  unlinked := fun _ hl => hl
  nextRef := le_rfl
  goes := by
    intro k'
    rw [node_put]
    split_ifs with hk
    · exact hk ▸ hg
    · exact .refl _

theorem Wired.put (h : Wired net) (htables : Tables k v') (hnext : v'.nextRef ≤ net.nextRef)
    (hg : Goes (net.node k) v')
    (hentries : ∀ e ∈ v'.remoteLinks, e ∈ net.made ∧ e.localActorRef.systemId = k)
    (hlinkers : ∀ x, ∀ info ∈ v'.remoteLinkers x, Known net k x info)
    (hout : ∀ p ∈ out, Fits (net.put k (v', out)) k p.1 p.2)
    (htold : ∀ l, told v' l ≠ 0 → Heard net k v' l) : Wired (net.put k (v', out)) := by
  have hlater : Later net (net.put k (v', out)) := later_put hg
  refine ⟨fun k' => ?_, fun k' => ?_, fun e he => hlater.linker (h.made e he), h.unique,
    fun k' e he => ?_, fun k' x info hinfo => ?_, fun sender receiver message hmem => ?_,
    fun k' l hl => ?_⟩
  · rw [node_put]
    split_ifs with hk
    · exact hk ▸ htables
    · exact h.tables k'
  · rw [node_put]
    split_ifs
    · exact hnext
    · exact h.nextRef k'
  · rw [node_put] at he
    split_ifs at he with hk
    · exact hk ▸ hentries e he
    · exact h.entries k' e he
  · rw [node_put] at hinfo
    split_ifs at hinfo with hk
    · exact hlater.known (hk ▸ hlinkers x info hinfo)
    · exact hlater.known (h.linkers k' x info hinfo)
  · rcases (mem_channel_put ..).1 hmem with hold | ⟨rfl, hnew⟩
    · exact hlater.fits (h.channels _ _ message hold)
    · exact hout (receiver, message) hnew
  · rw [node_put] at hl ⊢
    split_ifs at hl ⊢ with hk
    · exact hlater.heard (hk ▸ htold l hl) rfl fun _ _ he => he
    · exact hlater.heard (h.heard k' l hl) rfl fun _ _ he => he

/-- The links and the linkers of the node are among those before. -/
structure Shrinks (n : N) (v v' : LinkNode N) : Prop where
  tables : Tables n v'
  nextRef : v'.nextRef = v.nextRef
  goes : Goes v v'
  remoteLinks : ∀ e ∈ v'.remoteLinks, e ∈ v.remoteLinks
  remoteLinkers : ∀ x, ∀ info ∈ v'.remoteLinkers x, info ∈ v.remoteLinkers x
  told : ∀ l, told v' l = told v l

theorem Wired.shrinks (h : Wired net) (hs : Shrinks k (net.node k) v')
    (hout : ∀ p ∈ out, Fits (net.put k (v', out)) k p.1 p.2) : Wired (net.put k (v', out)) := by
  refine h.put hs.tables (hs.nextRef.trans_le (h.nextRef k)) hs.goes
    (fun e he => h.entries k e (hs.remoteLinks e he))
    (fun x info hinfo => h.linkers k x info (hs.remoteLinkers x info hinfo)) hout
    fun l hl => ?_
  rw [hs.told] at hl
  have hsame : Later net net := ⟨fun _ he => he, fun _ hl => hl, le_rfl, fun _ => .refl _⟩
  exact hsame.heard (h.heard k l hl) (hs.told l) fun e _ he => hs.remoteLinks e he

section
omit [DecidableEq N]

theorem goes_of_ends {x : ActorId} {abnormal : Bool} (h : Ends n x abnormal v v') : Goes v v' where
  nextId := h.nextId.ge
  actors := fun y _ hy => h.actors ▸ hy
  ended := by
    intro y how hy
    rw [h.ended, ended_ends]
    split_ifs with hyx
    · rw [← hyx, hy]
      rfl
    · exact hy

theorem shrinks_of_ends {x : ActorId} {abnormal : Bool} (h : Ends n x abnormal v v') :
    Shrinks n v v' where
  tables := h.tables
  nextRef := h.nextRef
  goes := goes_of_ends h
  remoteLinks := h.remoteLinks
  remoteLinkers := h.remoteLinkers
  told := h.told

theorem ended_of_ends {x : ActorId} {abnormal : Bool} (h : Ends n x abnormal v v') :
    v'.ended x ≠ none := by
  rw [h.ended, ended_ends, if_pos rfl]
  cases v.ended x <;> simp

end

/-! ## Every step -/

omit [DecidableEq N] in
theorem Wired.of_later (h : Wired net) (hl : Later net net') (hnode : net'.node = net.node)
    (hmade : ∀ e ∈ net'.made, Made net' e)
    (hunique : ∀ e ∈ net'.made, ∀ e' ∈ net'.made, e.linkRef.id = e'.linkRef.id → e = e')
    (hchannels : ∀ sender receiver, ∀ message ∈ net'.channel sender receiver,
      message ∈ net.channel sender receiver) : Wired net' where
  tables := fun k => hnode ▸ h.tables k
  nextRef := fun k => hnode ▸ (h.nextRef k).trans hl.nextRef
  made := hmade
  unique := hunique
  entries := by
    rw [hnode]
    exact fun k e he => ⟨hl.made e (h.entries k e he).1, (h.entries k e he).2⟩
  linkers := by
    rw [hnode]
    exact fun k x info hinfo => hl.known (h.linkers k x info hinfo)
  channels := fun sender receiver message hmem =>
    hl.fits (h.channels sender receiver message (hchannels sender receiver message hmem))
  heard := by
    rw [hnode]
    exact fun k l htold => hl.heard (h.heard k l htold) rfl fun _ _ he => he

theorem Wired.init : Wired (.init : LinkNetwork N) where
  tables := fun k => .new k
  nextRef := fun _ => le_rfl
  made := fun _ he => by cases he
  unique := fun _ he => by cases he
  entries := fun _ _ he => by cases he
  linkers := fun _ _ _ hinfo => by cases hinfo
  channels := fun _ _ _ hmem => by cases hmem
  heard := fun _ _ htold => absurd rfl htold

section
omit [DecidableEq N]

theorem Shrinks.refl (h : Tables n v) : Shrinks n v v :=
  ⟨h, rfl, .refl v, fun _ he => he, fun _ _ hinfo => hinfo, fun _ => rfl⟩

theorem shrinks_spawn (h : Tables n v) : Shrinks n v v.spawn where
  tables := h.spawn
  nextRef := rfl
  goes := by
    refine ⟨Nat.le_succ _, fun x hx hmem => ?_, fun _ _ hx => hx⟩
    exact Finset.mem_of_mem_insert_of_ne hmem (Nat.ne_of_lt hx)
  remoteLinks := fun _ he => he
  remoteLinkers := fun _ _ hinfo => hinfo
  told := fun _ => rfl

theorem shrinks_setTrapExit (h : Tables n v) (trapExit : ActorId → Bool) :
    Shrinks n v { v with trapExit := trapExit } where
  tables := h.setTrapExit trapExit
  nextRef := rfl
  goes := ⟨le_rfl, fun _ _ hx => hx, fun _ _ hx => hx⟩
  remoteLinks := fun _ he => he
  remoteLinkers := fun _ _ hinfo => hinfo
  told := fun _ => rfl

theorem shrinks_remove (h : Tables n v) {x : ActorId} (hx : v.ended x ≠ none) :
    Shrinks n v { v with actors := v.actors.erase x } where
  tables := h.remove hx
  nextRef := rfl
  goes := ⟨le_rfl, fun _ _ hy => Finset.mem_of_mem_erase hy, fun _ _ hy => hy⟩
  remoteLinks := fun _ he => he
  remoteLinkers := fun _ _ hinfo => hinfo
  told := fun _ => rfl

theorem shrinks_unlink (h : Tables n v) {linkRef : LinkRef}
    (hmade : v.linkRefs linkRef.id = some linkRef) : Shrinks n v (v.unlink linkRef).1 := by
  have hu := unlinks_unlink h hmade []
  have hnode : (v.unlink linkRef).1 =
      { v with toRelations := (v.unlink linkRef).1.toRelations } := hu.node
  refine ⟨hu.tables h, hu.trims.keeps.nextRef, ?_, hu.trims.remoteLinks, ?_, hu.told⟩
  · rw [hnode]
    exact ⟨le_rfl, fun _ _ hx => hx, fun _ _ hx => hx⟩
  · rw [hnode]
    exact fun _ _ hinfo => hinfo

/-- `_handleRemoteLinkRemove` -/
theorem shrinks_forgetLinker (h : Tables n v) (l : RefId) (x : ActorId) :
    Shrinks n v { v with
      remoteLinkers := Function.update v.remoteLinkers x
        ((v.remoteLinkers x).eraseP fun info => info.linkRefId = l) } where
  tables := ⟨h.sound, h.localLinks, h.context, h.unique, h.removed⟩
  nextRef := rfl
  goes := ⟨le_rfl, fun _ _ hy => hy, fun _ _ hy => hy⟩
  remoteLinks := fun _ he => he
  remoteLinkers := by
    intro y info hinfo
    change info ∈ Function.update v.remoteLinkers x _ y at hinfo
    by_cases hy : y = x
    · subst hy
      rw [Function.update_self] at hinfo
      exact List.mem_of_mem_eraseP hinfo
    · rwa [Function.update_of_ne hy] at hinfo
  told := fun _ => rfl

/-- The ids of new links come from all nodes together. -/
theorem tables_nextRef (h : Tables n v) {next : RefId} (hnext : v.nextRef ≤ next) :
    Tables n { v with nextRef := next } where
  sound := by
    refine ⟨⟨h.sound.agree.watches.of_kept ⟨rfl, rfl, rfl, rfl, rfl, rfl⟩ hnext,
      h.sound.agree.links.of_kept ⟨rfl, rfl, rfl, rfl, rfl, rfl, rfl⟩ hnext⟩, h.sound.actors,
      h.sound.watcher, h.sound.linked, fun w hw => ?_⟩
    exact ⟨(h.sound.settled w hw).1.trans_le hnext, (h.sound.settled w hw).2⟩
  localLinks := h.localLinks
  context := h.context
  unique := h.unique
  removed := h.removed

/-- A new link has an id of its own. -/
theorem unique_append {es : List (RemoteLinkEntry N)} {new : RemoteLinkEntry N}
    (hunique : ∀ e ∈ es, ∀ e' ∈ es, e.linkRef.id = e'.linkRef.id → e = e')
    (hnew : ∀ e ∈ es, e.linkRef.id ≠ new.linkRef.id) :
    ∀ e ∈ es ++ [new], ∀ e' ∈ es ++ [new], e.linkRef.id = e'.linkRef.id → e = e' := by
  intro e he e' he' hid
  rw [List.mem_append, List.mem_singleton] at he he'
  rcases he with he | rfl <;> rcases he' with he' | rfl
  · exact hunique e he e' he' hid
  · exact absurd hid (hnew e he)
  · exact absurd hid.symm (hnew e' he')
  · rfl

theorem tables_setupRemoteLink (h : Tables n v) {localActorRef : ActorRef N}
    (hactor : localActorRef.id ∈ v.actors) (remoteActorRef : ActorRef N) :
    Tables n (v.setupRemoteLink localActorRef remoteActorRef).1 where
  sound := by
    refine h.sound.newLink (LinkTables.agree_setupRemoteLink h.sound.agree.links _ _)
      ⟨rfl, rfl, rfl, rfl, rfl, rfl⟩ (h.sound.actors _ hactor) (fun hl => ?_) rfl
      (fun l hl => .inr hl) rfl rfl
    exact absurd (h.sound.agree.links.madeLocal _ hl) (lt_irrefl _)
  localLinks := h.localLinks
  context := by
    intro x ref href
    rcases (LinkTables.mem_putLink _ _ _ _ _).1 href with hold | ⟨rfl, rfl⟩
    · exact h.context x ref hold
    · rfl
  unique := by
    have hold : ∀ e ∈ v.remoteLinks, e.linkRef.id ≠ v.nextRef := fun e he =>
      Nat.ne_of_lt (h.sound.agree.links.lt_of_remote he)
    exact unique_append h.unique hold
  removed := h.removed

end

/-- The link that the next `link` of a node makes. -/
def newLink (net : LinkNetwork N) (localActorRef remoteActorRef : ActorRef N) :
    RemoteLinkEntry N :=
  ⟨⟨net.nextRef, localActorRef.id, remoteActorRef.id⟩, localActorRef, remoteActorRef.systemId,
    remoteActorRef.id⟩

/-- The network knows of the link before its node has it. -/
def withLink (net : LinkNetwork N) (localActorRef remoteActorRef : ActorRef N) :
    LinkNetwork N :=
  { net with
    nextRef := net.nextRef + 1
    made := net.made ++ [newLink net localActorRef remoteActorRef] }

section
variable {localActorRef remoteActorRef : ActorRef N}

omit [DecidableEq N] in
theorem later_withLink : Later net (withLink net localActorRef remoteActorRef) :=
  ⟨fun _ he => List.mem_append_left _ he, fun _ hl => hl, Nat.le_succ _, fun _ => .refl _⟩

omit [DecidableEq N] in
theorem Wired.withLink (h : Wired net) (hsystem : localActorRef.systemId = n)
    (hactor : localActorRef.id ∈ (net.node n).actors) (hremote : remoteActorRef.systemId ≠ n)
    (hlinked : remoteActorRef.id < (net.node remoteActorRef.systemId).nextId) :
    Wired (withLink net localActorRef remoteActorRef) := by
  have hold : ∀ e ∈ net.made, e.linkRef.id ≠ net.nextRef := fun e he =>
    Nat.ne_of_lt (h.made e he).id
  refine h.of_later later_withLink rfl (fun e he => ?_) (unique_append h.unique hold)
    fun _ _ _ hmem => hmem
  rcases List.mem_append.1 he with hmem | hnew
  · exact later_withLink.linker (h.made e hmem)
  · rw [List.mem_singleton.1 hnew]
    exact ⟨Nat.lt_succ_self _, rfl, fun heq => hremote (heq.trans hsystem),
      (h.tables _).sound.actors _ (hsystem ▸ hactor), hlinked⟩

theorem Wired.link (h : Wired net) (hsystem : localActorRef.systemId = n)
    (hactor : localActorRef.id ∈ (net.node n).actors) (hremote : remoteActorRef.systemId ≠ n)
    (hlinked : remoteActorRef.id < (net.node remoteActorRef.systemId).nextId) :
    Wired ((RemoteLinkMessages.withLink net localActorRef remoteActorRef).put n
      ({ net.node n with nextRef := net.nextRef }.setupRemoteLink localActorRef
        remoteActorRef)) := by
  have hwired := h.withLink hsystem hactor hremote hlinked
  have hnew : newLink net localActorRef remoteActorRef ∈ net.made ++
      [newLink net localActorRef remoteActorRef] := by simp
  refine hwired.put ?_ le_rfl ⟨le_rfl, fun _ _ hx => hx, fun _ _ hx => hx⟩ (fun e he => ?_)
    (fun x info hinfo => later_withLink.known (h.linkers n x info hinfo)) (fun p hp => ?_)
    fun l hl => ?_
  · exact tables_setupRemoteLink (tables_nextRef (h.tables n) (h.nextRef n)) hactor _
  · rcases List.mem_append.1 he with hold | hlast
    · exact ⟨List.mem_append_left _ (h.entries n e hold).1, (h.entries n e hold).2⟩
    · rw [List.mem_singleton.1 hlast]
      exact ⟨hnew, hsystem⟩
  · rw [List.mem_singleton.1 hp]
    exact ⟨hsystem, _, hnew, rfl, hsystem, rfl, rfl, rfl⟩
  · refine later_withLink.heard (h.heard n l hl) rfl fun e he hmem => ?_
    rcases List.mem_append.1 hmem with hold | hlast
    · exact hold
    · rw [List.mem_singleton.1 hlast] at he
      exact absurd (h.made _ he).id (lt_irrefl _)

end

omit [DecidableEq N] in
theorem goes_of_exits {reason : TerminationReason} (h : Exits n e reason v v') : Goes v v' := by
  rw [h.node]
  exact ⟨le_rfl, fun _ _ hx => hx, fun _ _ hx => hx⟩

theorem Wired.exits (h : Wired net) (l : RefId) (x : ActorId) (reason : TerminationReason)
    (hlinked : ∀ e ∈ (net.node k).remoteLinks, e.linkRef.id = l →
      (net.node e.remoteNodeId).ended e.remoteActorId ≠ none) :
    Wired (net.put k ((net.node k).handleRemoteLinkExit callbacks l x reason, [])) := by
  cases hfound : (net.node k).getRemoteLink l with
  | none =>
      rw [handleRemoteLinkExit_none hfound]
      exact h.shrinks (.refl (h.tables k)) fun _ hp => by cases hp
  | some e =>
      obtain ⟨hmem, rfl⟩ := LinkTables.getRemoteLink_some hfound
      have hx : Exits k e reason (net.node k)
          ((net.node k).handleRemoteLinkExit callbacks e.linkRef.id x reason) :=
        exits_handleRemoteLinkExit (h.tables k) hmem x reason
      refine h.put hx.tables (hx.nextRef.trans_le (h.nextRef k)) (goes_of_exits hx)
        (fun e' he' => ?_) (fun y info hinfo => ?_) (fun _ hp => by cases hp) fun l hl => ?_
      · rw [hx.remoteLinks] at he'
        exact h.entries k e' (List.mem_of_mem_filter he')
      · rw [hx.node] at hinfo
        exact h.linkers k y info hinfo
      · have hgone : ∀ e' : RemoteLinkEntry N, e' ∉ (net.node k).remoteLinks →
            e' ∉ ((net.node k).handleRemoteLinkExit callbacks e.linkRef.id x
              reason).remoteLinks := by
          intro e' hout he'
          rw [hx.remoteLinks] at he'
          exact hout (List.mem_of_mem_filter he')
        rw [hx.told] at hl
        split_ifs at hl with hthis
        · -- the actor had not been told before
          have hnot : told (net.node k) l = 0 := by
            by_contra hne
            obtain ⟨-, e', he', hid, -, hout, -⟩ := h.heard k l hne
            have hsame := h.unique e (h.entries k e hmem).1 e' he' (hthis.1 ▸ hid.symm)
            exact hout (hsame ▸ hmem)
          refine ⟨?_, e, (h.entries k e hmem).1, hthis.1.symm, (h.entries k e hmem).2, ?_,
            hlinked e hmem rfl⟩
          · rw [hx.told, if_pos hthis, hnot]
          · rw [hx.remoteLinks]
            simp
        · obtain ⟨honce, e', he', hid, hsystem, hout, hended⟩ := h.heard k l hl
          refine ⟨?_, e', he', hid, hsystem, hgone e' hout, hended⟩
          rw [hx.told, if_neg hthis]
          exact honce

/-- The first message of a channel is taken out of it. -/
def taken (net : LinkNetwork N) (sender receiver : N) (rest : List (LinkMessage N)) :
    LinkNetwork N :=
  { net with
    channel := Function.update net.channel sender
      (Function.update (net.channel sender) receiver rest) }

/-- What comes back goes to the sender. -/
def received (callbacks : Callbacks N) (v : LinkNode N) (sender : N) (message : LinkMessage N) :
    LinkNode N × Outgoing N :=
  ((v.receive callbacks message).1, (v.receive callbacks message).2.map fun reply =>
    (sender, reply))

section
variable {sender receiver : N} {message : LinkMessage N} {rest : List (LinkMessage N)}

theorem channel_taken (s r : N) : (taken net sender receiver rest).channel s r =
    if s = sender ∧ r = receiver then rest else net.channel s r := by
  unfold taken
  by_cases hs : s = sender
  · subst hs
    by_cases hr : r = receiver
    · simp [hr]
    · simp [hr]
  · simp [hs]

theorem later_taken : Later net (taken net sender receiver rest) :=
  ⟨fun _ he => he, fun _ hl => hl, le_rfl, fun _ => .refl _⟩

theorem Wired.taken (h : Wired net) (hchannel : net.channel sender receiver = message :: rest) :
    Wired (taken net sender receiver rest) := by
  refine h.of_later later_taken rfl (fun e he => later_taken.linker (h.made e he)) h.unique
    fun s r message' hmem => ?_
  rw [channel_taken] at hmem
  split_ifs at hmem with hsame
  · rw [hsame.1, hsame.2, hchannel]
    exact List.mem_cons_of_mem _ hmem
  · exact hmem

omit [DecidableEq N] in
/-- The node has an exit of its own link only from the node of the linked actor. -/
theorem ended_of_exit (h : Wired net) {l : RefId} {x : ActorId} {reason : TerminationReason}
    (hf : Fits net sender receiver (.exit l x reason)) (he : e ∈ (net.node receiver).remoteLinks)
    (hid : e.linkRef.id = l) : (net.node e.remoteNodeId).ended e.remoteActorId ≠ none := by
  obtain ⟨hended, e', he', hid', hway⟩ := hf
  obtain ⟨hmade, hsystem⟩ := h.entries receiver e he
  have hsame := h.unique e hmade e' he' (hid.trans hid'.symm)
  subst hsame
  rcases hway with ⟨-, hremote, -⟩ | ⟨-, hremote, hx⟩
  · exact absurd (hremote.trans hsystem.symm) (h.made e hmade).remote
  · rw [hremote, hx]
    exact hended

theorem Wired.deliver (h : Wired net) (hchannel : net.channel sender receiver = message :: rest) :
    Wired ((RemoteLinkMessages.taken net sender receiver rest).put receiver
      (received callbacks (net.node receiver) sender message)) := by
  have hfits : Fits net sender receiver message :=
    h.channels sender receiver message (hchannel ▸ List.mem_cons_self)
  have ht := h.taken hchannel
  cases message with
  | add l linkerNodeId linkerActorId x trapExit =>
      obtain ⟨rfl, e, he, hid, hsystem, hactor, hremote, hx⟩ := hfits
      unfold received LinkNode.receive
      dsimp only
      split_ifs with hthere
      · refine ht.put ⟨(h.tables receiver).sound, (h.tables receiver).localLinks,
          (h.tables receiver).context, (h.tables receiver).unique, (h.tables receiver).removed⟩
          (h.nextRef receiver) ⟨le_rfl, fun _ _ hy => hy, fun _ _ hy => hy⟩
          (fun e' he' => h.entries receiver e' he') (fun y info hinfo => ?_) (fun p hp => ?_)
          fun l' hl' => h.heard receiver l' hl'
        · change info ∈ Function.update (net.node receiver).remoteLinkers x _ y at hinfo
          by_cases hy : y = x
          · subst hy
            rw [Function.update_self] at hinfo
            rcases List.mem_append.1 hinfo with hold | hnew
            · exact h.linkers receiver y info hold
            · rw [List.mem_singleton.1 hnew]
              exact ⟨e, he, hid, hsystem, hactor, hremote, hx⟩
          · rw [Function.update_of_ne hy] at hinfo
            exact h.linkers receiver y info hinfo
        · rw [List.mem_singleton.1 hp]
          exact ⟨e, he, hid, hsystem, hremote, hx, nofun⟩
      · refine ht.shrinks (.refl (h.tables receiver)) fun p hp => ?_
        rw [List.mem_singleton.1 hp]
        refine ⟨e, he, hid, hsystem, hremote, hx, fun _ => ?_⟩
        rw [node_put_self]
        exact (h.tables receiver).removed x (hx ▸ hremote ▸ (h.made e he).linked) hthere
  | added l x alreadyDead =>
      obtain ⟨e, he, hid, hsystem, hremote, hx, hdead⟩ := hfits
      cases alreadyDead with
      | false => exact ht.shrinks (.refl (h.tables receiver)) fun _ hp => by cases hp
      | true =>
          refine ht.exits l x .normal fun e' he' hid' => ?_
          have hsame := h.unique e' (h.entries receiver e' he').1 e he (hid'.trans hid.symm)
          rw [hsame, hremote, hx]
          exact hdead rfl
  | remove l x =>
      exact ht.shrinks (shrinks_forgetLinker (h.tables receiver) l x) fun _ hp => by cases hp
  | exit l x reason =>
      have hended : ∀ e ∈ (net.node receiver).remoteLinks, e.linkRef.id = l →
          (net.node e.remoteNodeId).ended e.remoteActorId ≠ none :=
        fun e he hid => ended_of_exit h hfits he hid
      exact ht.exits l x reason hended

end

theorem step_deliver {sender receiver : N}
    (hst : net.step callbacks (.deliver sender receiver) = some net') :
    ∃ message rest, net.channel sender receiver = message :: rest ∧
      net' = (taken net sender receiver rest).put receiver
        (received callbacks (net.node receiver) sender message) := by
  cases hchannel : net.channel sender receiver with
  | nil => simp [LinkNetwork.step, hchannel] at hst
  | cons message rest =>
      simp only [LinkNetwork.step, hchannel, Option.some.injEq] at hst
      exact ⟨message, rest, rfl, hst.symm⟩

theorem step_link {localActorRef remoteActorRef : ActorRef N}
    (hst : net.step callbacks (.link n localActorRef remoteActorRef) = some net') :
    (localActorRef.systemId = n ∧ localActorRef.id ∈ (net.node n).actors ∧
      remoteActorRef.systemId ≠ n ∧
      remoteActorRef.id < (net.node remoteActorRef.systemId).nextId) ∧
    net' = (withLink net localActorRef remoteActorRef).put n
      ({ net.node n with nextRef := net.nextRef }.setupRemoteLink localActorRef
        remoteActorRef) := by
  simp only [LinkNetwork.step] at hst
  split_ifs at hst with hguard
  exact ⟨hguard, (Option.some.inj hst).symm⟩

/-- A caller has removed a link. -/
def unlinking (net : LinkNetwork N) (l : RefId) : LinkNetwork N :=
  { net with unlinked := net.unlinked ++ [l] }

theorem step_unlink (h : Wired net) {l : RefId}
    (hst : net.step callbacks (.unlink n l) = some net') :
    ∃ linkRef, (net.node n).linkRefs linkRef.id = some linkRef ∧ linkRef.id = l ∧
      net' = (unlinking net l).put n ((net.node n).unlink linkRef) := by
  simp only [LinkNetwork.step, Option.map_eq_some_iff] at hst
  obtain ⟨linkRef, href, rfl⟩ := hst
  have hid := ((h.tables n).sound.agree.links.made l linkRef href).1
  exact ⟨linkRef, by rw [hid]; exact href, hid, rfl⟩

omit [DecidableEq N] in
theorem mem_unlink {linkRef : LinkRef} {p : N × LinkMessage N} (hp : p ∈ (v.unlink linkRef).2) :
    ∃ e ∈ v.remoteLinks, e.linkRef.id = linkRef.id ∧
      p = (e.remoteNodeId, .remove linkRef.id e.remoteActorId) := by
  unfold LinkNode.unlink at hp
  cases hfound : v.getRemoteLink linkRef.id with
  | none => simp [hfound] at hp
  | some e =>
      obtain ⟨hmem, hid⟩ := LinkTables.getRemoteLink_some hfound
      refine ⟨e, hmem, hid, ?_⟩
      simpa [hfound] using hp

theorem Wired.unlink (h : Wired net) {linkRef : LinkRef}
    (hmade : (net.node n).linkRefs linkRef.id = some linkRef) :
    Wired ((unlinking net linkRef.id).put n ((net.node n).unlink linkRef)) := by
  have hlater : Later net (unlinking net linkRef.id) :=
    ⟨fun _ he => he, fun _ hl => List.mem_append_left _ hl, le_rfl, fun _ => .refl _⟩
  have hmarked : Wired (unlinking net linkRef.id) :=
    h.of_later hlater rfl (fun e he => hlater.linker (h.made e he)) h.unique
      fun _ _ _ hmem => hmem
  refine hmarked.shrinks (shrinks_unlink (h.tables n) hmade) fun p hp => ?_
  obtain ⟨e, he, hid, rfl⟩ := mem_unlink hp
  obtain ⟨hmem, hsystem⟩ := h.entries n e he
  exact ⟨e, hmem, hid, hsystem, rfl, rfl, .inl (List.mem_append_right _ (by simp))⟩

theorem Wired.notifyLinkedActors (h : Wired net) (actorRef : ActorRef N)
    (reason : TerminationReason) :
    Wired (net.put n ((net.node n).notifyLinkedActors callbacks actorRef reason)) := by
  have hends : Ends n actorRef.id reason.abnormal (net.node n)
      ((net.node n).notifyLinkedActors callbacks actorRef reason).1 :=
    ends_notifyLinkedActors (h.tables n) actorRef reason
  refine h.shrinks (shrinks_of_ends hends) fun p hp => ?_
  have hended := ended_of_ends hends
  rcases (mem_notifyLinkedActors callbacks (h.tables n) actorRef reason p).1 hp with
    ⟨e, he, hx, rfl⟩ | ⟨info, hinfo, rfl⟩
  · obtain ⟨hmem, hsystem⟩ := h.entries n e he
    refine ⟨by rwa [node_put_self], e, hmem, rfl, .inl ⟨hsystem, rfl, ?_⟩⟩
    rw [(h.made e hmem).actor, hx]
  · obtain ⟨e, he, hid, hsystem, -, hremote, hx⟩ := h.linkers n _ info hinfo
    exact ⟨by rwa [node_put_self], e, he, hid, .inr ⟨hsystem, hremote, hx⟩⟩

theorem Wired.stopSingle (h : Wired net) (x : ActorId) :
    Wired (net.put n ((net.node n).stopSingle x)) := by
  have hends := ends_stopSingle (h.tables n) x
  refine h.shrinks (shrinks_of_ends hends) fun p hp => ?_
  obtain ⟨e, he, hx, rfl⟩ := mem_stopSingle (h.tables n) hp
  obtain ⟨hmem, hsystem⟩ := h.entries n e he
  refine ⟨e, hmem, rfl, hsystem, rfl, rfl, .inr ?_⟩
  rw [node_put_self, (h.made e hmem).actor, hx]
  exact ended_of_ends hends

theorem Wired.step (h : Wired net) {a : LinkAction N} (hst : net.step callbacks a = some net') :
    Wired net' := by
  cases a with
  | spawn n =>
      cases hst
      exact h.shrinks (shrinks_spawn (h.tables n)) fun _ hp => by cases hp
  | setTrapExit n x trap =>
      cases hst
      exact h.shrinks (shrinks_setTrapExit (h.tables n) _) fun _ hp => by cases hp
  | link n localActorRef remoteActorRef =>
      obtain ⟨⟨hsystem, hactor, hremote, hlinked⟩, rfl⟩ := step_link hst
      exact h.link hsystem hactor hremote hlinked
  | unlink n l =>
      obtain ⟨linkRef, hmade, rfl, rfl⟩ := step_unlink h hst
      exact h.unlink hmade
  | notifyLinkedActors n actorRef reason =>
      simp only [LinkNetwork.step] at hst
      split_ifs at hst
      cases hst
      exact h.notifyLinkedActors actorRef reason
  | stopSingle n x =>
      simp only [LinkNetwork.step] at hst
      split_ifs at hst
      cases hst
      exact h.stopSingle x
  | remove n x =>
      simp only [LinkNetwork.step] at hst
      split_ifs at hst with hx
      cases hst
      exact h.shrinks (shrinks_remove (h.tables n) hx) fun _ hp => by cases hp
  | deliver sender receiver =>
      obtain ⟨message, rest, hchannel, rfl⟩ := step_deliver hst
      exact h.deliver hchannel

end Libeam.Proofs.RemoteLinkMessages
