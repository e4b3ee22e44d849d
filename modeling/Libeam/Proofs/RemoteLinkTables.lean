import Libeam.Monitoring.RemoteLinks
import Libeam.Proofs.NotificationRounds
/-!
# The tables of a node with remote links

What each operation of a node does to its remote links and what it sends: the links that
it removes, one message for each of them, and the actors that are told.
-/

namespace Libeam.Proofs.RemoteLinkTables

open Libeam.System (ActorId)
open Supervision (ActorRef)
open Monitoring WatchTables LinkTables BondsAgree
open NotificationRounds (cancelled events_inform)

variable {N : Type} {callbacks : Callbacks N} {actors : Finset ActorId} {r r' r'' : Relations N}
  {n : N} {v v' : LinkNode N}

/-! ## Being told -/

/-- An exit message because of this link. -/
def isExit (l : RefId) : Event N → Bool
  | .informed _ (.exit (some linkRef) _ _) => linkRef.id = l
  | _ => false

/-- How often an actor of the node has been sent an exit message or has crashed because of
the remote link. -/
def told (v : LinkNode N) (l : RefId) : Nat := v.events.countP (isExit l) + v.crashes.count l

theorem isExit_cancelled (l : RefId) (ws : List RefId) :
    (cancelled r ws).countP (isExit l) = 0 := by
  refine List.countP_eq_zero.2 fun event hmem => ?_
  obtain ⟨w, -, rfl⟩ := List.mem_map.1 hmem
  exact Bool.false_ne_true

theorem countP_inform (h : WatchesAgree actors r) (id : ActorId) (linkRef : LinkRef)
    (exitedRef : ActorRef N) (reason : TerminationReason) (l : RefId) :
    (r.inform actors callbacks id (.exit (some linkRef) exitedRef reason)).1.events.countP
        (isExit l) =
      r.events.countP (isExit l) + if linkRef.id = l then 1 else 0 := by
  rw [events_inform h, List.countP_append, List.countP_cons, isExit_cancelled]
  by_cases hl : linkRef.id = l <;> simp [isExit, hl]

/-! ## Tables -/

/-- The records of watches and links of a node. -/
abbrev bonds (n : N) (v : LinkNode N) : Bonds N :=
  { toRelations := v.toRelations, id := n, actors := v.actors, nextId := v.nextId }

structure Tables (n : N) (v : LinkNode N) : Prop where
  sound : Sound (bonds n v)
  localLinks : v.localLinks = []
  context : ∀ x, ∀ linkRef ∈ v.contextLinks x, linkRef.actor1Id = x
  unique : ∀ e ∈ v.remoteLinks, ∀ e' ∈ v.remoteLinks, e.linkRef.id = e'.linkRef.id → e = e'
  /-- An actor that is gone has begun to end. -/
  removed : ∀ x < v.nextId, x ∉ v.actors → v.ended x ≠ none

/-- Links are only removed. -/
structure Trims (actors : Finset ActorId) (r r' : Relations N) : Prop where
  keeps : Keeps actors r r'
  context : ∀ x, ∀ linkRef ∈ r'.contextLinks x, linkRef ∈ r.contextLinks x
  remoteLinks : ∀ e ∈ r'.remoteLinks, e ∈ r.remoteLinks

namespace Trims

theorem refl (h : Agree actors r) : Trims actors r r :=
  ⟨.refl h, fun _ _ href => href, fun _ he => he⟩

theorem trans (h : Trims actors r r') (h' : Trims actors r' r'') : Trims actors r r'' where
  keeps := h.keeps.trans h'.keeps
  context := fun x ref href => h.context x ref (h'.context x ref href)
  remoteLinks := fun e he => h.remoteLinks e (h'.remoteLinks e he)

theorem cuts (h : Agree actors r) {l : RefId} (hc : Cuts actors l r r') : Trims actors r r' where
  keeps := h.cuts hc
  context := hc.contextSub
  remoteLinks := fun e he => by
    rw [hc.remoteLinks] at he
    exact List.mem_of_mem_filter he

theorem inform (h : Agree actors r) (id : ActorId) (message : InfoMessage N) :
    Trims actors r (r.inform actors callbacks id message).1 := by
  have hp : Prunes actors r (r.inform actors callbacks id message).1 :=
    prunes_inform h.watches id message
  refine ⟨h.prunes hp, fun x ref href => ?_, fun e he => ?_⟩
  · rwa [hp.links.contextLinks] at href
  · rwa [hp.links.remoteLinks] at he

end Trims

namespace Tables

theorem links_none (h : Tables n v) (l : RefId) : v.links l = none := by
  by_contra hsome
  obtain ⟨e, he⟩ := Option.ne_none_iff_exists'.1 hsome
  have hlocal := (h.sound.agree.links.entry l e he).2.1
  change l ∈ v.localLinks at hlocal
  rw [h.localLinks] at hlocal
  exact List.not_mem_nil hlocal

theorem getRemoteLink_eq (h : Tables n v) {e : RemoteLinkEntry N} (he : e ∈ v.remoteLinks) :
    v.getRemoteLink e.linkRef.id = some e := by
  cases hfound : v.getRemoteLink e.linkRef.id with
  | none => exact absurd rfl (getRemoteLink_none hfound e he)
  | some e' =>
      obtain ⟨hmem, hid⟩ := getRemoteLink_some hfound
      rw [h.unique e' hmem e he hid]

/-- A remote link is in the index under its linker only. -/
theorem mem_linkedWith (h : Tables n v) {e : RemoteLinkEntry N} (he : e ∈ v.remoteLinks)
    (x : ActorId) : e.linkRef.id ∈ v.linkedWith.get x ↔ e.linkRef.actor1Id = x := by
  refine (h.sound.agree.links.index _ _).trans ⟨?_, fun hx => .inr ⟨e, he, rfl, hx⟩⟩
  rintro (⟨e', he', -⟩ | ⟨e', he', hid, hx⟩)
  · rw [show (bonds n v).links e.linkRef.id = none from h.links_none _] at he'
    cases he'
  · rwa [h.unique e he e' he' hid.symm]

/-- The context of an actor has its own links only. -/
theorem actor1_of_context (h : Tables n v) {e : RemoteLinkEntry N} (he : e ∈ v.remoteLinks)
    {x : ActorId} (hx : e.linkRef.id ∈ (v.contextLinks x).map (·.id)) :
    e.linkRef.actor1Id = x := by
  obtain ⟨linkRef, href, hid⟩ := List.mem_map.1 hx
  have hmade := h.sound.agree.links.contextMade x linkRef href
  have hentry := (h.sound.agree.links.remote e he).1
  rw [hid, hentry, Option.some.injEq] at hmade
  rw [hmade]
  exact h.context x linkRef href

theorem trims (h : Tables n v) (ht : Trims v.actors v.toRelations v'.toRelations)
    (hactors : v'.actors = v.actors) (hnextId : v'.nextId = v.nextId)
    (hended : ∀ x, v.ended x ≠ none → v'.ended x ≠ none) : Tables n v' where
  sound := by
    have hsound := h.sound.keeps ht.keeps
    unfold bonds
    rw [hactors, hnextId]
    exact hsound
  localLinks := ht.keeps.localLinks.trans h.localLinks
  context := fun x ref href => h.context x ref (ht.context x ref href)
  unique := fun e he e' he' => h.unique e (ht.remoteLinks e he) e' (ht.remoteLinks e' he')
  removed := fun x hx hgone => by
    rw [hnextId] at hx
    rw [hactors] at hgone
    exact hended x (h.removed x hx hgone)

theorem new (n : N) [DecidableEq N] : Tables n (LinkNode.new : LinkNode N) where
  sound := Sound.init n
  localLinks := rfl
  context := fun _ _ href => by cases href
  unique := fun _ he => by cases he
  removed := fun x hx => absurd hx (Nat.not_lt_zero x)

theorem spawn (h : Tables n v) : Tables n v.spawn where
  sound := h.sound.spawn
  localLinks := h.localLinks
  context := by
    intro x ref href
    change ref ∈ Function.update v.contextLinks v.nextId [] x at href
    by_cases hx : x = v.nextId
    · subst hx
      rw [Function.update_self] at href
      cases href
    · rw [Function.update_of_ne hx] at href
      exact h.context x ref href
  unique := h.unique
  removed := by
    intro x hx hgone
    rcases Nat.lt_succ_iff_lt_or_eq.1 hx with hlt | rfl
    · exact h.removed x hlt fun hmem => hgone (Finset.mem_insert_of_mem hmem)
    · exact absurd (Finset.mem_insert_self _ _) hgone

theorem setTrapExit (h : Tables n v) (trapExit : ActorId → Bool) :
    Tables n { v with trapExit := trapExit } where
  sound := ⟨⟨h.sound.agree.watches.of_kept ⟨rfl, rfl, rfl, rfl, rfl, rfl⟩ le_rfl,
    ⟨h.sound.agree.links.index, h.sound.agree.links.context, h.sound.agree.links.contextMade,
      h.sound.agree.links.tidy, h.sound.agree.links.entry, h.sound.agree.links.remote,
      h.sound.agree.links.made, h.sound.agree.links.madeLocal⟩⟩, h.sound.actors,
      h.sound.watcher, h.sound.linked, h.sound.settled⟩
  localLinks := h.localLinks
  context := h.context
  unique := h.unique
  removed := h.removed

theorem remove (h : Tables n v) {x : ActorId} (hx : v.ended x ≠ none) :
    Tables n { v with actors := v.actors.erase x } where
  sound := h.sound.remove x
  localLinks := h.localLinks
  context := h.context
  unique := h.unique
  removed := by
    intro y hy hgone
    by_cases heq : y = x
    · rwa [heq]
    · exact h.removed y hy fun hmem => hgone (Finset.mem_erase.2 ⟨heq, hmem⟩)

end Tables

/-! ## Removing links one after another -/

variable [DecidableEq N]

/-- The links with these ids are removed, and a message is sent for each of them. -/
structure Unlinks (ls : List RefId) (message : RemoteLinkEntry N → LinkMessage N)
    (start done : LinkNode N × Outgoing N) : Prop where
  node : done.1 = { start.1 with toRelations := done.1.toRelations }
  trims : Trims start.1.actors start.1.toRelations done.1.toRelations
  events : done.1.events = start.1.events
  remoteLinks : done.1.remoteLinks = start.1.remoteLinks.filter fun e => e.linkRef.id ∉ ls
  sent : ∀ p, p ∈ done.2 ↔ p ∈ start.2 ∨
    ∃ e ∈ start.1.remoteLinks, e.linkRef.id ∈ ls ∧ p = (e.remoteNodeId, message e)

namespace Unlinks

variable {ls ls' : List RefId} {message : RemoteLinkEntry N → LinkMessage N}
  {start done last : LinkNode N × Outgoing N}

section
omit [DecidableEq N]

theorem nil (h : Tables n start.1) : Unlinks [] message start start where
  node := rfl
  trims := .refl h.sound.agree
  events := rfl
  remoteLinks := by simp
  sent := by simp

theorem tables (h : Unlinks ls message start done) (ht : Tables n start.1) :
    Tables n done.1 := by
  rw [h.node]
  exact ht.trims h.trims rfl rfl fun _ hx => hx

theorem append (h : Unlinks ls message start done) (h' : Unlinks ls' message done last) :
    Unlinks (ls ++ ls') message start last where
  node := by
    rw [h'.node, h.node]
  trims := by
    have ht := h'.trims
    rw [h.node] at ht
    exact h.trims.trans ht
  events := h'.events.trans h.events
  remoteLinks := by
    rw [h'.remoteLinks, h.remoteLinks, List.filter_filter]
    refine List.filter_congr fun e _ => ?_
    simp [Bool.and_comm]
  sent := by
    intro p
    rw [h'.sent, h.sent, h.remoteLinks, or_assoc]
    refine or_congr_right ?_
    constructor
    · rintro (⟨e, he, hid, hp⟩ | ⟨e, he, hid, hp⟩)
      · exact ⟨e, he, List.mem_append_left _ hid, hp⟩
      · exact ⟨e, List.mem_of_mem_filter he, List.mem_append_right _ hid, hp⟩
    · rintro ⟨e, he, hid, hp⟩
      by_cases hfirst : e.linkRef.id ∈ ls
      · exact .inl ⟨e, he, hfirst, hp⟩
      · refine .inr ⟨e, List.mem_filter.2 ⟨he, by simpa using hfirst⟩, ?_, hp⟩
        exact (List.mem_append.1 hid).resolve_left hfirst

/-- One link is cut, and the message is sent if it was there. -/
theorem cut (h : Tables n start.1) {l : RefId} {r : Relations N}
    (hc : Cuts start.1.actors l start.1.toRelations r) {sent : Outgoing N}
    (hsent : sent = ((start.1.getRemoteLink l).map fun e =>
      (e.remoteNodeId, message e)).toList) :
    Unlinks [l] message start ({ start.1 with toRelations := r }, start.2 ++ sent) where
  node := rfl
  trims := .cuts h.sound.agree hc
  events := hc.events
  remoteLinks := hc.remoteLinks.trans (by simp)
  sent := by
    intro p
    rw [List.mem_append, hsent, Option.mem_toList, Option.map_eq_some_iff]
    refine or_congr_right ⟨?_, ?_⟩
    · rintro ⟨e, he, rfl⟩
      obtain ⟨hmem, hid⟩ := getRemoteLink_some he
      exact ⟨e, hmem, List.mem_singleton.2 hid, rfl⟩
    · rintro ⟨e, hmem, hid, rfl⟩
      rw [← List.mem_singleton.1 hid]
      exact ⟨e, h.getRemoteLink_eq hmem, rfl⟩

theorem told (h : Unlinks ls message start done) (l : RefId) : told done.1 l = told start.1 l := by
  unfold RemoteLinkTables.told
  rw [h.events, h.node]

end

end Unlinks

/-- The message that a link is removed. -/
def removal (e : RemoteLinkEntry N) : LinkMessage N := .remove e.linkRef.id e.remoteActorId

/-- The message that the actor has ended. -/
def exit (x : ActorId) (reason : TerminationReason) (e : RemoteLinkEntry N) : LinkMessage N :=
  .exit e.linkRef.id x reason

omit [DecidableEq N] in
theorem unlinks_unlink (h : Tables n v) {linkRef : LinkRef}
    (hmade : v.linkRefs linkRef.id = some linkRef) (out : Outgoing N) :
    Unlinks [linkRef.id] removal (v, out) ((v.unlink linkRef).1, out ++ (v.unlink linkRef).2) := by
  refine .cut h (cuts_unlink h.sound.agree.links hmade) ?_
  unfold LinkNode.unlink
  cases hfound : v.getRemoteLink linkRef.id with
  | none => rfl
  | some e =>
      obtain ⟨-, hid⟩ := getRemoteLink_some hfound
      simp [removal, hid]

omit [DecidableEq N] in
section
variable (callbacks)

theorem unlinks_tellLinked (h : Tables n v) {actorRef : ActorRef N} (reason : TerminationReason)
    {l : RefId} (hl : v.Concerns actorRef.id l) (out : Outgoing N) :
    Unlinks [l] (exit actorRef.id reason) (v, out)
      (LinkNode.tellLinked callbacks actorRef reason (v, out) l) := by
  have hlinks := h.links_none l
  have hagree := h.sound.agree
  refine .cut h ?_ ?_
  · unfold Relations.tellLinked
    rw [hlinks]
    dsimp only
    cases hfound : v.getRemoteLink l with
    | none => exact .absent hagree.links hlinks (getRemoteLink_none hfound)
    | some e =>
        obtain ⟨hmem, rfl⟩ := getRemoteLink_some hfound
        rw [← hagree.actor1_of_concerns hmem hl]
        exact cuts_forgetRemoteLink hagree.links hmem
  · rw [hlinks]
    cases v.getRemoteLink l <;> rfl

omit [DecidableEq N] in
/-- The links that concern an actor are removed one after another. -/
theorem unlinks_tellAll (h : Tables n v) {actorRef : ActorRef N} (reason : TerminationReason)
    {ls : List RefId} (hls : ∀ l ∈ ls, v.Concerns actorRef.id l) (out : Outgoing N) :
    Unlinks ls (exit actorRef.id reason) (v, out)
      (ls.foldl (LinkNode.tellLinked callbacks actorRef reason) (v, out)) := by
  induction ls generalizing v out with
  | nil => exact .nil h
  | cons l ls ih =>
      have hfirst := unlinks_tellLinked callbacks h reason
        (hls l List.mem_cons_self) out
      have hrest := ih (hfirst.tables h) (fun l' hl' => ?_)
        (LinkNode.tellLinked callbacks actorRef reason (v, out) l).2
      · exact hfirst.append hrest
      · obtain ⟨ref, href, hends⟩ := hls l' (List.mem_cons_of_mem _ hl')
        exact ⟨ref, hfirst.trims.keeps.linkRefs ▸ href, hfirst.trims.keeps.localLinks ▸ hends⟩

theorem unlinks_linkedWith (h : Tables n v) (actorRef : ActorRef N) (reason : TerminationReason) :
    Unlinks (v.linkedWith.get actorRef.id) (exit actorRef.id reason) (v, [])
      ((v.linkedWith.get actorRef.id).foldl (LinkNode.tellLinked callbacks actorRef reason)
        (v, [])) :=
  unlinks_tellAll callbacks h reason (fun _ hl => h.sound.agree.concerns hl) []

end

omit [DecidableEq N] in
theorem unlinks_unlinkAll (h : Tables n v) {refs : List LinkRef}
    (hrefs : ∀ ref ∈ refs, v.linkRefs ref.id = some ref) (out : Outgoing N) :
    Unlinks (refs.map (·.id)) removal (v, out) (refs.foldl (fun done linkRef =>
      ((done.1.unlink linkRef).1, done.2 ++ (done.1.unlink linkRef).2)) (v, out)) := by
  induction refs generalizing v out with
  | nil => exact .nil h
  | cons ref refs ih =>
      have hfirst := unlinks_unlink h (hrefs ref List.mem_cons_self) out
      have hrest := ih (hfirst.tables h) (fun ref' href' => ?_) (out ++ (v.unlink ref).2)
      · exact hfirst.append hrest
      · have hkept : (v.unlink ref).1.linkRefs = v.linkRefs := hfirst.trims.keeps.linkRefs
        rw [hkept]
        exact hrefs ref' (List.mem_cons_of_mem _ href')

/-! ## The end of an actor -/

omit [DecidableEq N] in
theorem ended_ends (v : LinkNode N) (x : ActorId) (abnormal : Bool) (y : ActorId) :
    (v.ends x abnormal).ended y =
      if y = x then (v.ended x).or (some abnormal) else v.ended y := by
  unfold LinkNode.ends
  exact Function.update_apply ..

omit [DecidableEq N] in
theorem ends_of_ended {x : ActorId} {how : Bool} (hx : v.ended x = some how) (abnormal : Bool)
    (y : ActorId) : (v.ends x abnormal).ended y = v.ended y := by
  rw [ended_ends, hx]
  split_ifs with hy
  · rw [hy, hx]
    rfl
  · rfl

/-- An actor begins to end, and nothing else changes than its links. -/
structure Ends (n : N) (x : ActorId) (abnormal : Bool) (v v' : LinkNode N) : Prop where
  tables : Tables n v'
  actors : v'.actors = v.actors
  nextId : v'.nextId = v.nextId
  nextRef : v'.nextRef = v.nextRef
  ended : v'.ended = (v.ends x abnormal).ended
  told : ∀ l, told v' l = told v l
  remoteLinks : ∀ e ∈ v'.remoteLinks, e ∈ v.remoteLinks
  kept : ∀ e ∈ v.remoteLinks, e.linkRef.actor1Id ≠ x → e ∈ v'.remoteLinks
  remoteLinkers : ∀ y, ∀ info ∈ v'.remoteLinkers y, info ∈ v.remoteLinkers y
  others : ∀ y ≠ x, v'.remoteLinkers y = v.remoteLinkers y

section
omit [DecidableEq N]

theorem Ends.ended_none {x : ActorId} {how : Bool} (h : Ends n x how v v')
    (hx : v.ended x = none) : v'.ended x = some how := by
  rw [h.ended, ended_ends, if_pos rfl, hx]
  rfl

theorem Ends.ended_some {x : ActorId} {how first : Bool} (h : Ends n x how v v')
    (hx : v.ended x = some first) : v'.ended x = some first := by
  rw [h.ended, ends_of_ended hx, hx]

theorem Unlinks.ends (h : Tables n v) {ls : List RefId}
    {message : RemoteLinkEntry N → LinkMessage N} {done : LinkNode N × Outgoing N}
    (hu : Unlinks ls message (v, []) done) {x : ActorId}
    (hls : ∀ e ∈ v.remoteLinks, e.linkRef.id ∈ ls → e.linkRef.actor1Id = x)
    (remoteLinkers : ActorId → List (RemoteLinkerInfo N))
    (hinfos : ∀ y, ∀ info ∈ remoteLinkers y, info ∈ v.remoteLinkers y)
    (hothers : ∀ y ≠ x, remoteLinkers y = v.remoteLinkers y) (abnormal : Bool) :
    Ends n x abnormal v ({ done.1 with remoteLinkers := remoteLinkers }.ends x abnormal) where
  tables := by
    rw [hu.node]
    refine h.trims hu.trims rfl rfl fun y hy => ?_
    intro hnone
    have hsome := (ended_ends { done.1 with remoteLinkers := remoteLinkers } x abnormal y).symm
    rw [hu.node] at hsome
    rw [hnone] at hsome
    split_ifs at hsome
    · cases hx : v.ended x <;> simp [hx] at hsome
    · exact hy hsome
  actors := by rw [hu.node]; rfl
  nextId := by rw [hu.node]; rfl
  nextRef := hu.trims.keeps.nextRef
  ended := by rw [hu.node]; rfl
  told := hu.told
  remoteLinks := hu.trims.remoteLinks
  kept := by
    intro e he hne
    change e ∈ done.1.remoteLinks
    rw [hu.remoteLinks]
    refine List.mem_filter.2 ⟨he, ?_⟩
    simpa using fun hid => hne (hls e he hid)
  remoteLinkers := hinfos
  others := hothers

theorem ends_notifyLinkedActors (h : Tables n v) (actorRef : ActorRef N)
    (reason : TerminationReason) :
    Ends n actorRef.id reason.abnormal v (v.notifyLinkedActors callbacks actorRef reason).1 := by
  have hu := unlinks_linkedWith callbacks h actorRef reason
  have hlinkers : ((v.linkedWith.get actorRef.id).foldl
      (LinkNode.tellLinked callbacks actorRef reason) (v, [])).1.remoteLinkers =
      v.remoteLinkers := by
    rw [hu.node]
  refine hu.ends h (fun e he hid => (h.mem_linkedWith he _).1 hid) _ (fun y info hinfo => ?_)
    (fun y hy => ?_) reason.abnormal
  · rw [hlinkers] at hinfo
    by_cases hy : y = actorRef.id
    · rw [hy, Function.update_self] at hinfo
      cases hinfo
    · rwa [Function.update_of_ne hy] at hinfo
  · rw [hlinkers]
    exact Function.update_of_ne hy ..

theorem remoteLinkers_notifyLinkedActors (actorRef : ActorRef N) (reason : TerminationReason) :
    (v.notifyLinkedActors callbacks actorRef reason).1.remoteLinkers actorRef.id = [] :=
  Function.update_self ..

/-- Every linked actor and every linker on another node is sent an exit. -/
theorem mem_notifyLinkedActors (callbacks : Callbacks N) (h : Tables n v) (actorRef : ActorRef N)
    (reason : TerminationReason) (p : N × LinkMessage N) :
    p ∈ (v.notifyLinkedActors callbacks actorRef reason).2 ↔
      (∃ e ∈ v.remoteLinks, e.linkRef.actor1Id = actorRef.id ∧
        p = (e.remoteNodeId, .exit e.linkRef.id actorRef.id reason)) ∨
      ∃ info ∈ v.remoteLinkers actorRef.id,
        p = (info.linkerNodeId, .exit info.linkRefId actorRef.id reason) := by
  have hu := unlinks_linkedWith callbacks h actorRef reason
  unfold LinkNode.notifyLinkedActors LinkNode.notifyRemoteLinkers
  dsimp only
  rw [List.mem_append, hu.sent, List.mem_map]
  refine or_congr ?_ ?_
  · rw [or_iff_right List.not_mem_nil]
    refine exists_congr fun e => and_congr_right fun he => ?_
    exact and_congr_left' (h.mem_linkedWith he _)
  · rw [hu.node]
    simp only [eq_comm]

theorem unlinks_contextLinks (h : Tables n v) (x : ActorId) :
    Unlinks ((v.contextLinks x).map (·.id)) removal (v, [])
      ((v.contextLinks x).foldl (fun done linkRef =>
        ((done.1.unlink linkRef).1, done.2 ++ (done.1.unlink linkRef).2)) (v, [])) :=
  unlinks_unlinkAll h (h.sound.agree.links.contextMade x) []

theorem ends_stopSingle (h : Tables n v) (x : ActorId) :
    Ends n x true v (v.stopSingle x).1 := by
  have hu := unlinks_contextLinks h x
  have hlinkers : ((v.contextLinks x).foldl (fun done linkRef =>
      ((done.1.unlink linkRef).1, done.2 ++ (done.1.unlink linkRef).2)) (v, [])).1.remoteLinkers =
      v.remoteLinkers := by
    rw [hu.node]
  refine hu.ends h (fun e he hid => h.actor1_of_context he hid) _ (fun y info hinfo => ?_)
    (fun y _ => ?_) true
  · rwa [hlinkers] at hinfo
  · rw [hlinkers]

theorem remoteLinkers_stopSingle (h : Tables n v) (x : ActorId) :
    (v.stopSingle x).1.remoteLinkers = v.remoteLinkers := by
  have hu := unlinks_contextLinks h x
  unfold LinkNode.stopSingle
  dsimp only [LinkNode.ends]
  rw [hu.node]

/-- An actor that is restarted only removes its links. -/
theorem mem_stopSingle (h : Tables n v) {x : ActorId} {p : N × LinkMessage N}
    (hp : p ∈ (v.stopSingle x).2) :
    ∃ e ∈ v.remoteLinks, e.linkRef.actor1Id = x ∧
      p = (e.remoteNodeId, .remove e.linkRef.id e.remoteActorId) := by
  have hu := unlinks_contextLinks h x
  rcases (hu.sent p).1 hp with hnil | ⟨e, he, hid, rfl⟩
  · cases hnil
  · exact ⟨e, he, h.actor1_of_context he hid, rfl⟩

end

/-! ## Exits from other nodes -/

omit [DecidableEq N] in
theorem handleRemoteLinkExit_none {l : RefId} (hfound : v.getRemoteLink l = none)
    (x : ActorId) (reason : TerminationReason) :
    v.handleRemoteLinkExit callbacks l x reason = v := by
  unfold LinkNode.handleRemoteLinkExit Relations.handleRemoteLinkExit
  simp [hfound]

/-- A link goes, and its actor may have been told. -/
structure Exits (n : N) (e : RemoteLinkEntry N) (reason : TerminationReason)
    (v v' : LinkNode N) : Prop where
  node : v' = { v with toRelations := v'.toRelations, crashes := v'.crashes }
  tables : Tables n v'
  nextRef : v'.nextRef = v.nextRef
  remoteLinks : v'.remoteLinks = v.remoteLinks.filter fun e' => e'.linkRef.id ≠ e.linkRef.id
  told : ∀ l, told v' l = told v l +
    if l = e.linkRef.id ∧ e.linkRef.actor1Id ∈ v.actors ∧
      (v.trapExit e.linkRef.actor1Id = true ∨ reason.abnormal = true) then 1 else 0

omit [DecidableEq N] in
section
variable (callbacks)

theorem trims_exitLinked (h : Agree actors r) (linkRef : LinkRef)
    (targetRef exitedRef : ActorRef N) (reason : TerminationReason) (message : String) :
    Trims actors r
      (r.exitLinked actors callbacks linkRef targetRef exitedRef reason message).relations := by
  unfold Relations.exitLinked
  split_ifs
  · exact .inform h _ _
  · exact .refl h
  · exact .refl h
  · exact .refl h

omit [DecidableEq N] in
theorem remoteLinks_exitLinked (h : Agree actors r) (linkRef : LinkRef)
    (targetRef exitedRef : ActorRef N) (reason : TerminationReason) (message : String) :
    (r.exitLinked actors callbacks linkRef targetRef exitedRef reason
      message).relations.remoteLinks = r.remoteLinks := by
  unfold Relations.exitLinked
  split_ifs
  · exact (prunes_inform h.watches _ _).links.remoteLinks
  · rfl
  · rfl
  · rfl

/-- A linked actor that is there is told once, when it traps exits or the end is abnormal. -/
theorem told_exitLinked (h : Agree actors r) (linkRef : LinkRef)
    (targetRef exitedRef : ActorRef N) (reason : TerminationReason) (message : String)
    (l : RefId) :
    let done := r.exitLinked actors callbacks linkRef targetRef exitedRef reason message
    done.relations.events.countP (isExit l) +
        (done.crash.toList.map fun _ => linkRef.id).count l =
      r.events.countP (isExit l) +
        if l = linkRef.id ∧ targetRef.id ∈ actors ∧
          (r.trapExit targetRef.id = true ∨ reason.abnormal = true) then 1 else 0 := by
  unfold Relations.exitLinked
  by_cases hactor : targetRef.id ∈ actors
  · by_cases htrap : r.trapExit targetRef.id = true
    · simp only [hactor, htrap, if_true, Option.toList_none, List.map_nil, List.count_nil,
        countP_inform h.watches, true_or, and_true, Nat.add_zero]
      simp only [eq_comm]
    · by_cases habnormal : reason.abnormal = true
      · by_cases hl : l = linkRef.id
        · simp [hactor, htrap, habnormal, hl]
        · simp [hactor, htrap, habnormal, hl, Ne.symm hl]
      · simp [hactor, htrap, habnormal]
  · simp [hactor]

end

omit [DecidableEq N] in
theorem exits_handleRemoteLinkExit (h : Tables n v) {e : RemoteLinkEntry N}
    (he : e ∈ v.remoteLinks) (x : ActorId) (reason : TerminationReason) :
    Exits n e reason v (v.handleRemoteLinkExit callbacks e.linkRef.id x reason) := by
  have hagree := h.sound.agree
  obtain ⟨-, hlocal, hactor⟩ := hagree.links.remote e he
  have hc := (cuts_forgetRemoteLink hagree.links he).dropLink hlocal e.linkRef.actor1Id
  have hdropped := (hagree.cuts hc).agree
  obtain ⟨-, -, -, -, -, -, htrap, -⟩ := dropLink_tables v.actors
    (v.forgetRemoteLink e.linkRef.id e.linkRef.actor1Id) e.linkRef.actor1Id e.linkRef.id
  have hexit : v.toRelations.handleRemoteLinkExit v.actors callbacks e.linkRef.id x reason =
      ((v.forgetRemoteLink e.linkRef.id e.linkRef.actor1Id).dropLink v.actors
        e.linkRef.actor1Id e.linkRef.id).exitLinked v.actors callbacks
        ⟨e.linkRef.id, e.linkRef.actor1Id, x⟩ e.localActorRef ⟨e.remoteNodeId, x, none, 1⟩ reason
        ("Linked remote actor " ++ toString x ++ " terminated: " ++ reason.type) := by
    unfold Relations.handleRemoteLinkExit
    rw [h.getRemoteLink_eq he, ← hactor]
  unfold LinkNode.handleRemoteLinkExit
  rw [hexit]
  have htrims := (Trims.cuts hagree hc).trans (trims_exitLinked callbacks hdropped
    ⟨e.linkRef.id, e.linkRef.actor1Id, x⟩ e.localActorRef ⟨e.remoteNodeId, x, none, 1⟩ reason
    ("Linked remote actor " ++ toString x ++ " terminated: " ++ reason.type))
  refine ⟨rfl, h.trims htrims rfl rfl fun _ hx => hx, htrims.keeps.nextRef, ?_, fun l => ?_⟩
  · exact (remoteLinks_exitLinked callbacks hdropped _ _ _ _ _).trans hc.remoteLinks
  · have htold := told_exitLinked callbacks hdropped
      ⟨e.linkRef.id, e.linkRef.actor1Id, x⟩ e.localActorRef ⟨e.remoteNodeId, x, none, 1⟩ reason
      ("Linked remote actor " ++ toString x ++ " terminated: " ++ reason.type) l
    dsimp only at htold
    rw [htrap, hactor, show _ = v.events from hc.events] at htold
    unfold told
    dsimp only
    rw [List.count_append, Nat.add_left_comm, htold, Nat.add_left_comm, ← Nat.add_assoc]
    rfl

end Libeam.Proofs.RemoteLinkTables
