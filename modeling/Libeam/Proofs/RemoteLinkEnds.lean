import Libeam.Proofs.RemoteLinkMessages
/-!
# Remote links in both directions

The actors of a remote link learn of each other's end when the linked actor ends first and
its end is announced.  The node of a linked actor has no entry for the link, so what it is
told of the end of the linker is lost, and an actor that is restarted tells nobody.
-/

namespace Libeam.Proofs.RemoteLinkEnds

open Libeam.System (ActorId)
open Supervision (ActorRef)
open Monitoring Lib.Transition RemoteLinkTables RemoteLinkMessages

variable {N : Type} {callbacks : Callbacks N} {net net' : LinkNetwork N} {k : N}
  {v v' : LinkNode N} {out : Outgoing N} {e : RemoteLinkEntry N}

/-! ## What is to hold, and when it does -/

/-- The actor is there and has not begun to end. -/
def Live (v : LinkNode N) (x : ActorId) : Prop := x ∈ v.actors ∧ v.ended x = none

/-- The request to register the linker is on its way. -/
def Requested (net : LinkNetwork N) (e : RemoteLinkEntry N) : Prop :=
  ∃ trapExit, .add e.linkRef.id e.localActorRef.systemId e.localActorRef.id e.remoteActorId
    trapExit ∈ net.channel e.localActorRef.systemId e.remoteNodeId

/-- The answer that the linked actor is dead is on its way. -/
def Answered (net : LinkNetwork N) (e : RemoteLinkEntry N) : Prop :=
  .added e.linkRef.id e.remoteActorId true ∈
    net.channel e.remoteNodeId e.localActorRef.systemId

def Exiting (net : LinkNetwork N) (e : RemoteLinkEntry N) (sender receiver : N) : Prop :=
  ∃ x reason, .exit e.linkRef.id x reason ∈ net.channel sender receiver

/-- When one of the two actors has ended abnormally and the other is live, the other has
been told once, or will be told by a message that is on its way. -/
structure Bidirectional (net : LinkNetwork N) (e : RemoteLinkEntry N) : Prop where
  linkerOnce : told (net.node e.localActorRef.systemId) e.linkRef.id ≤ 1
  linkedOnce : told (net.node e.remoteNodeId) e.linkRef.id ≤ 1
  linker : Live (net.node e.localActorRef.systemId) e.localActorRef.id →
    (net.node e.remoteNodeId).ended e.remoteActorId = some true →
    told (net.node e.localActorRef.systemId) e.linkRef.id = 1 ∨
      Requested net e ∨ Answered net e ∨ Exiting net e e.remoteNodeId e.localActorRef.systemId
  linked : Live (net.node e.remoteNodeId) e.remoteActorId →
    (net.node e.localActorRef.systemId).ended e.localActorRef.id = some true →
    told (net.node e.remoteNodeId) e.linkRef.id = 1 ∨
      Exiting net e e.localActorRef.systemId e.remoteNodeId

/-- A message that arrives is not of a kind that leaves a live actor untold. -/
def Arrives (net : LinkNetwork N) (sender receiver : N) : LinkMessage N → Prop
  | .add l linkerNodeId linkerActorId x _ =>
      x ∈ (net.node receiver).actors → (net.node receiver).ended x = some true →
        l ∉ net.unlinked → ¬ Live (net.node linkerNodeId) linkerActorId
  | .added l x alreadyDead =>
      alreadyDead = true → (net.node sender).ended x = some true →
        ∀ e ∈ (net.node receiver).remoteLinks, e.linkRef.id = l →
          Live (net.node receiver) e.localActorRef.id →
            (net.node receiver).trapExit e.localActorRef.id = true
  | .remove _ _ => True
  | .exit l x _ =>
      (net.node sender).ended x = some true → ∀ e ∈ net.made, e.linkRef.id = l →
        e.localActorRef.systemId = sender → l ∉ net.unlinked →
          ¬ Live (net.node receiver) e.remoteActorId

/-- No actor with a live actor at the other end of a remote link is restarted, no actor that
is ending makes a link, and messages arrive that way. -/
def Reports (net : LinkNetwork N) : LinkAction N → Prop
  | .link n localActorRef remoteActorRef =>
      (net.node n).ended localActorRef.id = some true →
        ¬ Live (net.node remoteActorRef.systemId) remoteActorRef.id
  | .stopSingle n x =>
      (net.node n).ended x = none →
        (∀ e ∈ (net.node n).remoteLinks, e.localActorRef.id = x →
          ¬ Live (net.node e.remoteNodeId) e.remoteActorId) ∧
        ∀ info ∈ (net.node n).remoteLinkers x, info.linkRefId ∉ net.unlinked →
          ¬ Live (net.node info.linkerNodeId) info.linkerActorId
  | .deliver sender receiver =>
      ∀ message ∈ (net.channel sender receiver).head?, Arrives net sender receiver message
  | _ => True

/-! ## The stages of a link -/

/-- The linked actor knows of the linker. -/
def Registered (net : LinkNetwork N) (e : RemoteLinkEntry N) : Prop :=
  ∃ info ∈ (net.node e.remoteNodeId).remoteLinkers e.remoteActorId,
    info.linkRefId = e.linkRef.id

/-- What holds of a link that has not been removed by a caller. -/
structure Secure (net : LinkNetwork N) (e : RemoteLinkEntry N) : Prop where
  registered : Live (net.node e.localActorRef.systemId) e.localActorRef.id →
    (net.node e.remoteNodeId).ended e.remoteActorId = none →
    e ∈ (net.node e.localActorRef.systemId).remoteLinks ∧ (Requested net e ∨ Registered net e)
  announced : Live (net.node e.localActorRef.systemId) e.localActorRef.id →
    (net.node e.remoteNodeId).ended e.remoteActorId = some true →
    told (net.node e.localActorRef.systemId) e.linkRef.id = 1 ∨
      e ∈ (net.node e.localActorRef.systemId).remoteLinks ∧
        (Requested net e ∨ Answered net e ∨
          Exiting net e e.remoteNodeId e.localActorRef.systemId)
  silent : Live (net.node e.localActorRef.systemId) e.localActorRef.id →
    (net.node e.remoteNodeId).ended e.remoteActorId = some true → ¬ Registered net e
  abnormal : Live (net.node e.localActorRef.systemId) e.localActorRef.id →
    (net.node e.remoteNodeId).ended e.remoteActorId = some true →
    ∀ x reason, .exit e.linkRef.id x reason ∈
      net.channel e.remoteNodeId e.localActorRef.systemId → reason.abnormal = true
  linked : Live (net.node e.remoteNodeId) e.remoteActorId →
    (net.node e.localActorRef.systemId).ended e.localActorRef.id = some true →
    Exiting net e e.localActorRef.systemId e.remoteNodeId

/-- A message on which a link depends. -/
def Carries (l : RefId) : LinkMessage N → Prop
  | .add l' _ _ _ _ => l' = l
  | .added l' _ alreadyDead => l' = l ∧ alreadyDead = true
  | .remove _ _ => False
  | .exit l' _ _ => l' = l

def about : LinkMessage N → RefId
  | .add l _ _ _ _ => l
  | .added l _ _ => l
  | .remove l _ => l
  | .exit l _ _ => l

theorem Carries.about {l : RefId} {message : LinkMessage N} (h : Carries l message) :
    about message = l := by
  cases message with
  | add => exact h
  | added => exact h.1
  | remove => exact h.elim
  | exit => exact h

/-- The linker's side of a link is as before. -/
structure LinkerKept (e : RemoteLinkEntry N) (v v' : LinkNode N) : Prop where
  live : Live v' e.localActorRef.id → Live v e.localActorRef.id
  ended : v'.ended e.localActorRef.id = v.ended e.localActorRef.id
  entry : e ∈ v.remoteLinks → e ∈ v'.remoteLinks
  told : told v' e.linkRef.id = told v e.linkRef.id

/-- The linked actor's side is as before. -/
structure LinkedKept (e : RemoteLinkEntry N) (v v' : LinkNode N) : Prop where
  live : Live v' e.remoteActorId → Live v e.remoteActorId
  ended : v'.ended e.remoteActorId = v.ended e.remoteActorId
  infos : ∀ info : RemoteLinkerInfo N, info.linkRefId = e.linkRef.id →
    (info ∈ v'.remoteLinkers e.remoteActorId ↔ info ∈ v.remoteLinkers e.remoteActorId)

theorem LinkerKept.refl (e : RemoteLinkEntry N) (v : LinkNode N) : LinkerKept e v v :=
  ⟨fun h => h, rfl, fun h => h, rfl⟩

theorem LinkedKept.refl (e : RemoteLinkEntry N) (v : LinkNode N) : LinkedKept e v v :=
  ⟨fun h => h, rfl, fun _ _ => Iff.rfl⟩

theorem LinkedKept.registered
    (h : LinkedKept e (net.node e.remoteNodeId) (net'.node e.remoteNodeId)) :
    Registered net' e ↔ Registered net e := by
  constructor
  · rintro ⟨info, hinfo, hid⟩
    exact ⟨info, (h.infos info hid).1 hinfo, hid⟩
  · rintro ⟨info, hinfo, hid⟩
    exact ⟨info, (h.infos info hid).2 hinfo, hid⟩

theorem Secure.of_kept (h : Secure net e)
    (hlinker : LinkerKept e (net.node e.localActorRef.systemId)
      (net'.node e.localActorRef.systemId))
    (hlinked : LinkedKept e (net.node e.remoteNodeId) (net'.node e.remoteNodeId))
    (hchannel : ∀ sender receiver message, Carries e.linkRef.id message →
      (message ∈ net'.channel sender receiver ↔ message ∈ net.channel sender receiver)) :
    Secure net' e := by
  have hrequested : Requested net' e ↔ Requested net e :=
    exists_congr fun trapExit => hchannel _ _ _ rfl
  have hanswered : Answered net' e ↔ Answered net e := hchannel _ _ _ ⟨rfl, rfl⟩
  have hexiting : ∀ sender receiver, Exiting net' e sender receiver ↔
      Exiting net e sender receiver :=
    fun sender receiver => exists_congr fun x => exists_congr fun reason =>
      hchannel _ _ _ rfl
  constructor
  · intro hlive hended
    rw [hlinked.ended] at hended
    obtain ⟨hentry, hstage⟩ := h.registered (hlinker.live hlive) hended
    rw [hrequested, hlinked.registered]
    exact ⟨hlinker.entry hentry, hstage⟩
  · intro hlive hended
    rw [hlinked.ended] at hended
    rw [hlinker.told, hrequested, hanswered, hexiting]
    exact (h.announced (hlinker.live hlive) hended).imp_right (And.imp_left hlinker.entry)
  · intro hlive hended
    rw [hlinked.ended] at hended
    rw [hlinked.registered]
    exact h.silent (hlinker.live hlive) hended
  · intro hlive hended x reason hmem
    rw [hlinked.ended] at hended
    have hold := (hchannel _ _ (.exit e.linkRef.id x reason) rfl).1 hmem
    exact h.abnormal (hlinker.live hlive) hended x reason hold
  · intro hlive hended
    rw [hlinker.ended] at hended
    rw [hexiting]
    exact h.linked (hlinked.live hlive) hended

/-! ## Steps that leave the link alone -/

section
variable [DecidableEq N]

theorem node_put_ne {k k' : N} (hk : k' ≠ k) (result : LinkNode N × Outgoing N) :
    (net.put k result).node k' = net.node k' := by
  rw [node_put, if_neg hk]

theorem Secure.put (h : Secure net e)
    (hlinker : k = e.localActorRef.systemId → LinkerKept e (net.node k) v')
    (hlinked : k = e.remoteNodeId → LinkedKept e (net.node k) v')
    (hout : ∀ p ∈ out, ¬ Carries e.linkRef.id p.2) : Secure (net.put k (v', out)) e := by
  refine h.of_kept ?_ ?_ fun sender receiver message hcarries => ?_
  · rw [node_put]
    split_ifs with hk
    · exact hk ▸ hlinker hk.symm
    · exact .refl e _
  · rw [node_put]
    split_ifs with hk
    · exact hk ▸ hlinked hk.symm
    · exact .refl e _
  · rw [mem_channel_put]
    exact or_iff_left fun hnew => hout (receiver, message) hnew.2 hcarries

/-- A message on which the link does not depend is taken out of its channel. -/
theorem Secure.taken (h : Secure net e) {sender receiver : N} {message : LinkMessage N}
    {rest : List (LinkMessage N)} (hchannel : net.channel sender receiver = message :: rest)
    (hother : ¬ Carries e.linkRef.id message) :
    Secure (taken net sender receiver rest) e := by
  refine h.of_kept (.refl e _) (.refl e _) fun s r message' hcarries => ?_
  rw [channel_taken]
  split_ifs with hsame
  · rw [hsame.1, hsame.2, hchannel, List.mem_cons]
    refine (or_iff_right ?_).symm
    rintro rfl
    exact hother hcarries
  · exact Iff.rfl

section
omit [DecidableEq N]

theorem linkerKept_spawn (hlt : e.localActorRef.id < v.nextId) : LinkerKept e v v.spawn where
  live := fun h => ⟨Finset.mem_of_mem_insert_of_ne h.1 (Nat.ne_of_lt hlt), h.2⟩
  ended := rfl
  entry := fun h => h
  told := rfl

theorem linkedKept_spawn (hlt : e.remoteActorId < v.nextId) : LinkedKept e v v.spawn where
  live := fun h => ⟨Finset.mem_of_mem_insert_of_ne h.1 (Nat.ne_of_lt hlt), h.2⟩
  ended := rfl
  infos := fun _ _ => Iff.rfl

theorem linkerKept_unlink (h : Tables k v) {linkRef : LinkRef}
    (hmade : v.linkRefs linkRef.id = some linkRef) (hne : e.linkRef.id ≠ linkRef.id) :
    LinkerKept e v (v.unlink linkRef).1 := by
  have hu := unlinks_unlink h hmade []
  have hnode : (v.unlink linkRef).1 =
      { v with toRelations := (v.unlink linkRef).1.toRelations } := hu.node
  refine ⟨fun hlive => ?_, ?_, fun he => ?_, hu.told _⟩
  · rw [hnode] at hlive
    exact hlive
  · rw [hnode]
  · rw [show (v.unlink linkRef).1.remoteLinks = _ from hu.remoteLinks]
    exact List.mem_filter.2 ⟨he, by simpa using hne⟩

theorem linkedKept_unlink (h : Tables k v) {linkRef : LinkRef}
    (hmade : v.linkRefs linkRef.id = some linkRef) : LinkedKept e v (v.unlink linkRef).1 := by
  have hnode : (v.unlink linkRef).1 =
      { v with toRelations := (v.unlink linkRef).1.toRelations } :=
    (unlinks_unlink h hmade []).node
  rw [hnode]
  exact ⟨fun hlive => hlive, rfl, fun _ _ => Iff.rfl⟩

theorem Live.of_ends {x y : ActorId} {how : Bool} (h : Ends k x how v v') (hne : y ≠ x)
    (hlive : Live v' y) : Live v y := by
  refine ⟨h.actors ▸ hlive.1, ?_⟩
  have hended := hlive.2
  rwa [h.ended, ended_ends, if_neg hne] at hended

theorem linkerKept_ends {x : ActorId} {how : Bool} (h : Ends k x how v v')
    (hactor : e.localActorRef.id = e.linkRef.actor1Id) (hne : e.localActorRef.id ≠ x) :
    LinkerKept e v v' where
  live := .of_ends h hne
  ended := by rw [h.ended, ended_ends, if_neg hne]
  entry := fun he => h.kept e he (hactor ▸ hne)
  told := h.told _

theorem linkedKept_ends {x : ActorId} {how : Bool} (h : Ends k x how v v')
    (hne : e.remoteActorId ≠ x) : LinkedKept e v v' where
  live := .of_ends h hne
  ended := by rw [h.ended, ended_ends, if_neg hne]
  infos := fun info _ => by rw [h.others _ hne]

/-- The exit of another link. -/
theorem linkerKept_exits {e' : RemoteLinkEntry N} {reason : TerminationReason}
    (h : Exits k e' reason v v') (hne : e.linkRef.id ≠ e'.linkRef.id) : LinkerKept e v v' where
  live := by
    rw [h.node]
    exact fun hlive => hlive
  ended := by rw [h.node]
  entry := by
    intro he
    rw [h.remoteLinks]
    exact List.mem_filter.2 ⟨he, by simpa using hne⟩
  told := by
    rw [h.told, if_neg fun hthis => hne hthis.1]
    rfl

theorem linkedKept_exits {e' : RemoteLinkEntry N} {reason : TerminationReason}
    (h : Exits k e' reason v v') : LinkedKept e v v' := by
  rw [h.node]
  exact ⟨fun hlive => hlive, rfl, fun _ _ => Iff.rfl⟩

theorem kept_handleRemoteLinkExit (h : Tables k v) {l : RefId} (hne : e.linkRef.id ≠ l)
    (x : ActorId) (reason : TerminationReason) :
    LinkerKept e v (v.handleRemoteLinkExit callbacks l x reason) ∧
      LinkedKept e v (v.handleRemoteLinkExit callbacks l x reason) := by
  cases hfound : v.getRemoteLink l with
  | none =>
      rw [handleRemoteLinkExit_none hfound]
      exact ⟨.refl e v, .refl e v⟩
  | some e' =>
      obtain ⟨hmem, rfl⟩ := LinkTables.getRemoteLink_some hfound
      have hx : Exits k e' reason v (v.handleRemoteLinkExit callbacks e'.linkRef.id x reason) :=
        exits_handleRemoteLinkExit h hmem x reason
      exact ⟨linkerKept_exits hx hne, linkedKept_exits hx⟩

theorem mem_eraseP_iff {infos : List (RemoteLinkerInfo N)} {l : RefId}
    {info : RemoteLinkerInfo N} (hne : info.linkRefId ≠ l) :
    info ∈ infos.eraseP (fun info => info.linkRefId = l) ↔ info ∈ infos := by
  refine List.mem_eraseP_of_neg ?_
  simpa using hne

/-- A message about another link. -/
theorem kept_receive (callbacks : Callbacks N) (h : Tables k v) {message : LinkMessage N}
    (hne : e.linkRef.id ≠ about message) :
    LinkerKept e v (v.receive callbacks message).1 ∧
      LinkedKept e v (v.receive callbacks message).1 := by
  cases message with
  | add l linkerNodeId linkerActorId x trapExit =>
      unfold LinkNode.receive
      dsimp only
      split_ifs with hthere
      · refine ⟨⟨fun hlive => hlive, rfl, fun he => he, rfl⟩, fun hlive => hlive, rfl,
          fun info hid => ?_⟩
        dsimp only
        by_cases hx : e.remoteActorId = x
        · rw [hx, Function.update_self, List.mem_append, List.mem_singleton]
          refine or_iff_left ?_
          rintro rfl
          exact hne hid.symm
        · rw [Function.update_of_ne hx]
      · exact ⟨.refl e v, .refl e v⟩
  | added l x alreadyDead =>
      cases alreadyDead with
      | false => exact ⟨.refl e v, .refl e v⟩
      | true => exact kept_handleRemoteLinkExit h hne x .normal
  | remove l x =>
      refine ⟨⟨fun hlive => hlive, rfl, fun he => he, rfl⟩, fun hlive => hlive, rfl,
        fun info hid => ?_⟩
      unfold LinkNode.receive
      dsimp only
      by_cases hx : e.remoteActorId = x
      · rw [hx, Function.update_self]
        exact mem_eraseP_iff fun hl => hne (hid.symm.trans hl)
      · rw [Function.update_of_ne hx]
  | exit l x reason => exact kept_handleRemoteLinkExit h hne x reason

theorem about_of_reply {message reply : LinkMessage N}
    (hreply : reply ∈ (v.receive callbacks message).2) : about reply = about message := by
  cases message with
  | add l linkerNodeId linkerActorId x trapExit =>
      unfold LinkNode.receive at hreply
      dsimp only at hreply
      split_ifs at hreply
      · rw [List.mem_singleton.1 hreply]
        rfl
      · rw [List.mem_singleton.1 hreply]
        rfl
  | added | remove | exit => cases hreply

end

/-- Another link's message arrives. -/
theorem Secure.deliver_other (hw : Wired net) (h : Secure net e) {sender receiver : N}
    {message : LinkMessage N} {rest : List (LinkMessage N)}
    (hchannel : net.channel sender receiver = message :: rest)
    (hne : e.linkRef.id ≠ about message) :
    Secure ((RemoteLinkMessages.taken net sender receiver rest).put receiver
      (received callbacks (net.node receiver) sender message)) e := by
  obtain ⟨hlinker, hlinked⟩ := kept_receive callbacks (hw.tables receiver) hne
  refine (h.taken hchannel fun hcarries => hne hcarries.about.symm).put (fun _ => hlinker)
    (fun _ => hlinked) fun p hp hcarries => ?_
  obtain ⟨reply, hreply, rfl⟩ := List.mem_map.1 hp
  exact hne (hcarries.about.symm.trans (about_of_reply hreply))

/-! ## The end of one of the two actors -/

omit [DecidableEq N] in
/-- The links that concern an actor of a node. -/
theorem eq_of_id (hw : Wired net) (he : e ∈ net.made) {e' : RemoteLinkEntry N}
    (he' : e' ∈ (net.node k).remoteLinks) (hid : e'.linkRef.id = e.linkRef.id) :
    e' = e ∧ e.localActorRef.systemId = k := by
  obtain ⟨hmade, hsystem⟩ := hw.entries k e' he'
  have hsame := hw.unique e' hmade e he hid
  exact ⟨hsame, hsame ▸ hsystem⟩

omit [DecidableEq N] in
theorem known_of_id (hw : Wired net) (he : e ∈ net.made) {x : ActorId}
    {info : RemoteLinkerInfo N} (hinfo : info ∈ (net.node k).remoteLinkers x)
    (hid : info.linkRefId = e.linkRef.id) :
    e.localActorRef.systemId = info.linkerNodeId ∧ e.localActorRef.id = info.linkerActorId ∧
      e.remoteNodeId = k ∧ e.remoteActorId = x := by
  obtain ⟨e', he', hid', hrest⟩ := hw.linkers k x info hinfo
  have hsame := hw.unique e' he' e he (hid'.trans hid)
  exact hsame ▸ hrest

/-- The end of an actor that the link does not concern. -/
theorem Secure.ends_other (h : Secure net e) (hmade : Made net e) {x : ActorId} {how : Bool}
    (hends : Ends k x how (net.node k) v')
    (hlinker : k = e.localActorRef.systemId → e.localActorRef.id ≠ x)
    (hlinked : k = e.remoteNodeId → e.remoteActorId ≠ x)
    (hout : ∀ p ∈ out, ¬ Carries e.linkRef.id p.2) : Secure (net.put k (v', out)) e :=
  h.put (fun hk => linkerKept_ends hends hmade.actor (hlinker hk))
    (fun hk => linkedKept_ends hends (hlinked hk)) hout

theorem Secure.linker_ends (h : Secure net e) (hmade : Made net e) {how : Bool}
    (hends : Ends e.localActorRef.systemId e.localActorRef.id how
      (net.node e.localActorRef.systemId) v')
    (hexit : Live (net.node e.remoteNodeId) e.remoteActorId →
      (net.node e.localActorRef.systemId).ended e.localActorRef.id = none → how = true →
      ∃ x reason, (e.remoteNodeId, .exit e.linkRef.id x reason) ∈ out) :
    Secure (net.put e.localActorRef.systemId (v', out)) e := by
  constructor <;> rw [node_put_self, node_put_ne hmade.remote]
  iterate 4 exact fun hlive => absurd hlive.2 (ended_of_ends hends)
  intro hlive hended
  cases hbefore : (net.node e.localActorRef.systemId).ended e.localActorRef.id with
  | none =>
      rw [hends.ended_none hbefore] at hended
      obtain ⟨x, reason, hsent⟩ := hexit hlive hbefore (Option.some.inj hended)
      exact ⟨x, reason, (mem_channel_put ..).2 (.inr ⟨rfl, hsent⟩)⟩
  | some first =>
      rw [hends.ended_some hbefore] at hended
      obtain ⟨x, reason, hmem⟩ := h.linked hlive (hbefore.trans hended)
      exact ⟨x, reason, (mem_channel_put ..).2 (.inl hmem)⟩

theorem Secure.linked_ends (hw : Wired net) (h : Secure net e) (he : e ∈ net.made) {how : Bool}
    (hends : Ends e.remoteNodeId e.remoteActorId how (net.node e.remoteNodeId) v')
    (hexit : Live (net.node e.localActorRef.systemId) e.localActorRef.id →
      (net.node e.remoteNodeId).ended e.remoteActorId = none → Registered net e →
      ∃ x reason, (e.localActorRef.systemId, .exit e.linkRef.id x reason) ∈ out)
    (hsilent : Live (net.node e.localActorRef.systemId) e.localActorRef.id →
      v'.ended e.remoteActorId = some true →
      ∀ info ∈ v'.remoteLinkers e.remoteActorId, info.linkRefId ≠ e.linkRef.id)
    (habnormal : Live (net.node e.localActorRef.systemId) e.localActorRef.id →
      v'.ended e.remoteActorId = some true → ∀ x reason,
      (e.localActorRef.systemId, .exit e.linkRef.id x reason) ∈ out → reason.abnormal = true) :
    Secure (net.put e.remoteNodeId (v', out)) e := by
  have hmade := hw.made e he
  constructor <;> rw [node_put_ne hmade.remote.symm, node_put_self]
  · exact fun _ hended => absurd hended (ended_of_ends hends)
  · intro hlive hended
    have hrequest : Requested net e → Requested (net.put e.remoteNodeId (v', out)) e :=
      Exists.imp fun _ hmem => (mem_channel_put ..).2 (.inl hmem)
    cases hbefore : (net.node e.remoteNodeId).ended e.remoteActorId with
    | none =>
        obtain ⟨hentry, hstage⟩ := h.registered hlive hbefore
        refine .inr ⟨hentry, hstage.elim (fun hr => .inl (hrequest hr)) fun hr => ?_⟩
        obtain ⟨x, reason, hsent⟩ := hexit hlive hbefore hr
        exact .inr (.inr ⟨x, reason, (mem_channel_put ..).2 (.inr ⟨rfl, hsent⟩)⟩)
    | some first =>
        rw [hends.ended_some hbefore] at hended
        refine (h.announced hlive (hbefore.trans hended)).imp_right
          (And.imp_right (Or.imp hrequest (Or.imp ?_ ?_)))
        · exact fun hmem => (mem_channel_put ..).2 (.inl hmem)
        · rintro ⟨x, reason, hmem⟩
          exact ⟨x, reason, (mem_channel_put ..).2 (.inl hmem)⟩
  · intro hlive hended
    rintro ⟨info, hinfo, hid⟩
    rw [node_put_self] at hinfo
    exact hsilent hlive hended info hinfo hid
  · intro hlive hended x reason hmem
    rcases (mem_channel_put ..).1 hmem with hold | ⟨-, hnew⟩
    · cases hbefore : (net.node e.remoteNodeId).ended e.remoteActorId with
      | none =>
          -- nothing of the link has been sent before
          obtain ⟨hx, e', he', hid, hway⟩ := hw.channels _ _ _ hold
          have hsame := hw.unique e' he' e he hid
          rw [hsame] at hway
          rcases hway with ⟨hsystem, -, -⟩ | ⟨-, -, rfl⟩
          · exact absurd hsystem.symm hmade.remote
          · exact absurd hbefore hx
      | some first =>
          rw [hends.ended_some hbefore] at hended
          exact h.abnormal hlive (hbefore.trans hended) x reason hold
    · exact habnormal hlive hended x reason hnew
  · exact fun hlive _ => absurd hlive.2 (ended_of_ends hends)

/-! ## Announcing an end, and restarting without announcing it -/

theorem Secure.notifyLinkedActors (hw : Wired net) (h : Secure net e) (he : e ∈ net.made)
    {actorRef : ActorRef N} (hactor : actorRef.id ∈ (net.node k).actors)
    (reason : TerminationReason) :
    Secure (net.put k ((net.node k).notifyLinkedActors callbacks actorRef reason)) e := by
  have hmade := hw.made e he
  have hends : Ends k actorRef.id reason.abnormal (net.node k)
      ((net.node k).notifyLinkedActors callbacks actorRef reason).1 :=
    ends_notifyLinkedActors (hw.tables k) actorRef reason
  have hsent := mem_notifyLinkedActors callbacks (hw.tables k) actorRef reason
  have hnone : ((net.node k).notifyLinkedActors callbacks actorRef reason).1.remoteLinkers
      actorRef.id = [] := remoteLinkers_notifyLinkedActors actorRef reason
  generalize (net.node k).notifyLinkedActors callbacks actorRef reason = result
    at hends hsent hnone ⊢
  obtain ⟨v', out⟩ := result
  dsimp only at hends hsent hnone
  by_cases hlinker : k = e.localActorRef.systemId ∧ e.localActorRef.id = actorRef.id
  · obtain ⟨rfl, hx⟩ := hlinker
    rw [← hx] at hends hactor
    refine h.linker_ends hmade hends fun hlive hbefore _ => ?_
    obtain ⟨hentry, -⟩ := h.registered ⟨hactor, hbefore⟩ hlive.2
    exact ⟨_, _, (hsent _).2 (.inl ⟨e, hentry, hmade.actor.symm.trans hx, rfl⟩)⟩
  by_cases hlinked : k = e.remoteNodeId ∧ e.remoteActorId = actorRef.id
  · obtain ⟨rfl, hx⟩ := hlinked
    rw [← hx] at hends hnone
    refine h.linked_ends hw he hends (fun hlive hbefore hr => ?_) (fun _ _ info hinfo => ?_)
      fun hlive hended x reason' hmem => ?_
    · obtain ⟨info, hinfo, hid⟩ := hr
      obtain ⟨hnode, -⟩ := known_of_id hw he hinfo hid
      rw [hx] at hinfo
      exact ⟨_, _, (hsent _).2 (.inr ⟨info, hinfo, by rw [hnode, hid]⟩)⟩
    · rw [hnone] at hinfo
      cases hinfo
    · rcases (hsent _).1 hmem with ⟨e', he', -, hp⟩ | ⟨info, hinfo, hp⟩
      · have hid : e'.linkRef.id = e.linkRef.id := by
          simp only [Prod.mk.injEq, LinkMessage.exit.injEq] at hp
          exact hp.2.1.symm
        exact absurd (eq_of_id hw he he' hid).2.symm hmade.remote
      · simp only [Prod.mk.injEq, LinkMessage.exit.injEq] at hp
        obtain ⟨-, hid, -, rfl⟩ := hp
        rw [← hx] at hinfo
        cases hbefore : (net.node e.remoteNodeId).ended e.remoteActorId with
        | none =>
            rw [hends.ended_none hbefore] at hended
            exact Option.some.inj hended
        | some first =>
            rw [hends.ended_some hbefore] at hended
            exact absurd ⟨info, hinfo, hid.symm⟩ (h.silent hlive (hbefore.trans hended))
  refine h.ends_other hmade hends (fun hk hx => hlinker ⟨hk, hx⟩) (fun hk hx => hlinked ⟨hk, hx⟩)
    fun p hp hcarries => ?_
  rcases (hsent p).1 hp with ⟨e', he', hx, rfl⟩ | ⟨info, hinfo, rfl⟩
  · obtain ⟨rfl, hsystem⟩ := eq_of_id hw he he' hcarries
    exact hlinker ⟨hsystem.symm, hmade.actor.trans hx⟩
  · obtain ⟨-, -, hnode, hx⟩ := known_of_id hw he hinfo hcarries
    exact hlinked ⟨hnode.symm, hx⟩

/-- No actor with a live actor at the other end of a link is restarted. -/
theorem Secure.stopSingle (hw : Wired net) (h : Secure net e) (he : e ∈ net.made)
    (hunlinked : e.linkRef.id ∉ net.unlinked) {x : ActorId}
    (hactor : x ∈ (net.node k).actors) (hreports : Reports net (.stopSingle k x)) :
    Secure (net.put k ((net.node k).stopSingle x)) e := by
  have hmade := hw.made e he
  have hends := ends_stopSingle (hw.tables k) x
  have hlinkers := remoteLinkers_stopSingle (hw.tables k) x
  have hout : ∀ p ∈ ((net.node k).stopSingle x).2, ∀ l, ¬ Carries l p.2 := by
    intro p hp l hcarries
    obtain ⟨e', -, -, rfl⟩ := mem_stopSingle (hw.tables k) hp
    exact hcarries
  generalize (net.node k).stopSingle x = result at hends hlinkers hout ⊢
  obtain ⟨v', out⟩ := result
  dsimp only at hends hlinkers hout
  by_cases hlinker : k = e.localActorRef.systemId ∧ e.localActorRef.id = x
  · obtain ⟨rfl, rfl⟩ := hlinker
    refine h.linker_ends hmade hends fun hlive hbefore _ => ?_
    obtain ⟨hentry, -⟩ := h.registered ⟨hactor, hbefore⟩ hlive.2
    exact absurd hlive ((hreports hbefore).1 e hentry rfl)
  by_cases hlinked : k = e.remoteNodeId ∧ e.remoteActorId = x
  · obtain ⟨rfl, rfl⟩ := hlinked
    have hnone : Live (net.node e.localActorRef.systemId) e.localActorRef.id →
        (net.node e.remoteNodeId).ended e.remoteActorId = none → ¬ Registered net e := by
      rintro hlive hbefore ⟨info, hinfo, hid⟩
      obtain ⟨hnode, hlinker, -⟩ := known_of_id hw he hinfo hid
      refine (hreports hbefore).2 info hinfo (hid ▸ hunlinked) ?_
      rwa [← hnode, ← hlinker]
    refine h.linked_ends hw he hends (fun hlive hbefore hr => absurd hr (hnone hlive hbefore))
      (fun hlive hended info hinfo hid => ?_)
      fun _ _ y reason hmem => absurd rfl (hout _ hmem e.linkRef.id)
    rw [hlinkers] at hinfo
    cases hbefore : (net.node e.remoteNodeId).ended e.remoteActorId with
    | none => exact hnone hlive hbefore ⟨info, hinfo, hid⟩
    | some first =>
        rw [hends.ended_some hbefore] at hended
        exact h.silent hlive (hbefore.trans hended) ⟨info, hinfo, hid⟩
  exact h.ends_other hmade hends (fun hk hx => hlinker ⟨hk, hx⟩)
    (fun hk hx => hlinked ⟨hk, hx⟩) fun p hp => hout p hp _

/-! ## Messages about the link -/

theorem node_taken_put_ne {sender receiver k' : N} {rest : List (LinkMessage N)} (hk : k' ≠ k)
    (result : LinkNode N × Outgoing N) :
    ((taken net sender receiver rest).put k result).node k' = net.node k' := node_put_ne hk _

theorem mem_channel_taken {sender receiver : N} {message : LinkMessage N}
    {rest : List (LinkMessage N)} (hchannel : net.channel sender receiver = message :: rest)
    {s r : N} {message' : LinkMessage N}
    (hmem : message' ∈ (taken net sender receiver rest).channel s r) :
    message' ∈ net.channel s r := by
  rw [channel_taken] at hmem
  split_ifs at hmem with hsame
  · rw [hsame.1, hsame.2, hchannel]
    exact List.mem_cons_of_mem _ hmem
  · exact hmem

/-- Only the first message is taken out. -/
theorem mem_taken {sender receiver : N} {message : LinkMessage N}
    {rest : List (LinkMessage N)} (hchannel : net.channel sender receiver = message :: rest)
    {s r : N} {message' : LinkMessage N} (hmem : message' ∈ net.channel s r)
    (hne : message' ≠ message) : message' ∈ (taken net sender receiver rest).channel s r := by
  rw [channel_taken]
  split_ifs with hsame
  · rw [hsame.1, hsame.2, hchannel] at hmem
    exact (List.mem_cons.1 hmem).resolve_left hne
  · exact hmem

omit [DecidableEq N] in
theorem told_of_entry (hw : Wired net) (he : e ∈ (net.node k).remoteLinks) :
    told (net.node k) e.linkRef.id = 0 := by
  by_contra hne
  obtain ⟨-, e', he', hid, -, hout, -⟩ := hw.heard k _ hne
  exact hout (hw.unique e (hw.entries k e he).1 e' he' hid.symm ▸ he)

omit [DecidableEq N] in
theorem getRemoteLink_absent (hw : Wired net) (he : e ∈ net.made)
    (hentry : e ∉ (net.node k).remoteLinks) : (net.node k).getRemoteLink e.linkRef.id = none := by
  by_contra hsome
  obtain ⟨e', hfound⟩ := Option.ne_none_iff_exists'.1 hsome
  obtain ⟨hmem, hid⟩ := LinkTables.getRemoteLink_some hfound
  exact hentry ((eq_of_id hw he hmem hid).1 ▸ hmem)

/-- The linker learns that the linked actor has ended. -/
theorem Secure.exits (hw : Wired net) (h : Secure net e) (he : e ∈ net.made)
    {message : LinkMessage N} {rest : List (LinkMessage N)}
    (hchannel : net.channel e.remoteNodeId e.localActorRef.systemId = message :: rest)
    (hdead : (net.node e.remoteNodeId).ended e.remoteActorId ≠ none) (x : ActorId)
    (reason : TerminationReason)
    (htells : (net.node e.remoteNodeId).ended e.remoteActorId = some true →
      e ∈ (net.node e.localActorRef.systemId).remoteLinks →
      Live (net.node e.localActorRef.systemId) e.localActorRef.id →
      (net.node e.localActorRef.systemId).trapExit e.localActorRef.id = true ∨
        reason.abnormal = true) :
    Secure ((RemoteLinkMessages.taken net e.remoteNodeId e.localActorRef.systemId rest).put
      e.localActorRef.systemId
      ((net.node e.localActorRef.systemId).handleRemoteLinkExit callbacks e.linkRef.id x reason,
        [])) e := by
  have hmade := hw.made e he
  constructor <;> rw [node_taken_put_ne hmade.remote, node_put_self]
  · exact fun _ hended => absurd hended hdead
  · intro (hbefore : Live (net.node e.localActorRef.systemId) e.localActorRef.id) hended
    refine .inl ?_
    by_cases hentry : e ∈ (net.node e.localActorRef.systemId).remoteLinks
    · have hx : Exits e.localActorRef.systemId e reason (net.node e.localActorRef.systemId)
          ((net.node e.localActorRef.systemId).handleRemoteLinkExit callbacks e.linkRef.id x
            reason) := exits_handleRemoteLinkExit (hw.tables _) hentry x reason
      rw [hx.told, told_of_entry hw hentry, ← hmade.actor,
        if_pos ⟨rfl, hbefore.1, htells hended hentry hbefore⟩]
    · rw [handleRemoteLinkExit_none (getRemoteLink_absent hw he hentry)]
      exact (h.announced hbefore hended).resolve_right fun hstage => hentry hstage.1
  · intro hlive hended
    rintro ⟨info, hinfo, hid⟩
    rw [node_taken_put_ne hmade.remote] at hinfo
    exact h.silent hlive hended ⟨info, hinfo, hid⟩
  · intro hlive hended y reason' hmem
    rcases (mem_channel_put ..).1 hmem with hold | ⟨-, hnew⟩
    · exact h.abnormal hlive hended y reason' (mem_channel_taken hchannel hold)
    · cases hnew
  · exact fun hlinked _ => absurd hlinked.2 hdead

/-- The request of the linker arrives. -/
theorem Secure.add (hw : Wired net) (h : Secure net e) (he : e ∈ net.made)
    (hunlinked : e.linkRef.id ∉ net.unlinked) {trapExit : Bool} {rest : List (LinkMessage N)}
    (hchannel : net.channel e.localActorRef.systemId e.remoteNodeId =
      .add e.linkRef.id e.localActorRef.systemId e.localActorRef.id e.remoteActorId trapExit ::
        rest)
    (harrives : Arrives net e.localActorRef.systemId e.remoteNodeId
      (.add e.linkRef.id e.localActorRef.systemId e.localActorRef.id e.remoteActorId trapExit)) :
    Secure ((RemoteLinkMessages.taken net e.localActorRef.systemId e.remoteNodeId rest).put
      e.remoteNodeId (received callbacks (net.node e.remoteNodeId) e.localActorRef.systemId
        (.add e.linkRef.id e.localActorRef.systemId e.localActorRef.id e.remoteActorId
          trapExit))) e := by
  have hmade := hw.made e he
  unfold received LinkNode.receive
  dsimp only
  split_ifs with hthere
  · have hnone : Live (net.node e.localActorRef.systemId) e.localActorRef.id →
        (net.node e.remoteNodeId).ended e.remoteActorId ≠ some true :=
      fun hlive hended => harrives hthere hended hunlinked hlive
    constructor <;> rw [node_taken_put_ne hmade.remote.symm, node_put_self]
    · intro hlive hended
      refine ⟨(h.registered hlive hended).1, .inr
        ⟨⟨e.linkRef.id, e.localActorRef.systemId, e.localActorRef.id, trapExit⟩, ?_, rfl⟩⟩
      rw [node_put_self]
      dsimp only
      rw [Function.update_self]
      exact List.mem_append_right _ (List.mem_singleton_self _)
    · exact fun hlive hended => absurd hended (hnone hlive)
    · exact fun hlive hended => absurd hended (hnone hlive)
    · exact fun hlive hended => absurd hended (hnone hlive)
    · intro hlive hended
      obtain ⟨x, reason, hmem⟩ := h.linked hlive hended
      exact ⟨x, reason, (mem_channel_put ..).2 (.inl (mem_taken hchannel hmem nofun))⟩
  · have hgone := (hw.tables e.remoteNodeId).removed e.remoteActorId hmade.linked hthere
    constructor <;> rw [node_taken_put_ne hmade.remote.symm, node_put_self]
    · exact fun _ hended => absurd hended hgone
    · intro hlive hended
      refine (h.announced hlive hended).imp_right fun hstage => ⟨hstage.1, .inr (.inl ?_)⟩
      exact (mem_channel_put ..).2 (.inr ⟨rfl, List.mem_singleton_self _⟩)
    · intro hlive hended
      rintro ⟨info, hinfo, hid⟩
      rw [node_put_self] at hinfo
      exact h.silent hlive hended ⟨info, hinfo, hid⟩
    · intro hlive hended x reason hmem
      rcases (mem_channel_put ..).1 hmem with hold | ⟨-, hnew⟩
      · exact h.abnormal hlive hended x reason (mem_channel_taken hchannel hold)
      · cases List.mem_singleton.1 hnew
    · exact fun hlive _ => absurd hlive.1 hthere

/-- An exit of the linker finds nothing at the node of the linked actor. -/
theorem Secure.exit_lost (hw : Wired net) (h : Secure net e) (he : e ∈ net.made)
    (hunlinked : e.linkRef.id ∉ net.unlinked) {reason : TerminationReason}
    {rest : List (LinkMessage N)}
    (hchannel : net.channel e.localActorRef.systemId e.remoteNodeId =
      .exit e.linkRef.id e.localActorRef.id reason :: rest)
    (harrives : Arrives net e.localActorRef.systemId e.remoteNodeId
      (.exit e.linkRef.id e.localActorRef.id reason)) :
    Secure ((RemoteLinkMessages.taken net e.localActorRef.systemId e.remoteNodeId rest).put
      e.remoteNodeId (received callbacks (net.node e.remoteNodeId) e.localActorRef.systemId
        (.exit e.linkRef.id e.localActorRef.id reason))) e := by
  have hmade := hw.made e he
  have hnowhere : e ∉ (net.node e.remoteNodeId).remoteLinks := fun hmem =>
    hmade.remote (hw.entries _ e hmem).2.symm
  unfold received LinkNode.receive
  dsimp only
  rw [handleRemoteLinkExit_none (getRemoteLink_absent hw he hnowhere), List.map_nil]
  have hnode : ∀ k', ((RemoteLinkMessages.taken net e.localActorRef.systemId e.remoteNodeId
      rest).put e.remoteNodeId (net.node e.remoteNodeId, [])).node k' = net.node k' := by
    intro k'
    rw [node_put]
    split_ifs with hk
    · rw [hk]
    · rfl
  have hkept : ∀ s r message, message ∈ net.channel s r →
      message ≠ .exit e.linkRef.id e.localActorRef.id reason →
      message ∈ ((RemoteLinkMessages.taken net e.localActorRef.systemId e.remoteNodeId rest).put
        e.remoteNodeId (net.node e.remoteNodeId, [])).channel s r :=
    fun s r message hmem hne => (mem_channel_put ..).2 (.inl (mem_taken hchannel hmem hne))
  have hback : ∀ message,
      message ∈ net.channel e.remoteNodeId e.localActorRef.systemId →
      message ∈ (RemoteLinkMessages.taken net e.localActorRef.systemId e.remoteNodeId
        rest).channel e.remoteNodeId e.localActorRef.systemId := by
    intro message hmem
    rw [channel_taken, if_neg fun hsame => hmade.remote hsame.1]
    exact hmem
  constructor <;> simp only [hnode]
  · intro hlive hended
    obtain ⟨hentry, hstage⟩ := h.registered hlive hended
    refine ⟨hentry, hstage.imp (Exists.imp fun _ hmem => hkept _ _ _ hmem nofun) ?_⟩
    rintro ⟨info, hinfo, hid⟩
    exact ⟨info, by rwa [hnode], hid⟩
  · intro hlive hended
    refine (h.announced hlive hended).imp_right (And.imp_right (Or.imp ?_ (Or.imp ?_ ?_)))
    · exact Exists.imp fun _ hmem => hkept _ _ _ hmem nofun
    · exact fun hmem => hkept _ _ _ hmem nofun
    · rintro ⟨x, reason', hmem⟩
      exact ⟨x, reason', (mem_channel_put ..).2 (.inl (hback _ hmem))⟩
  · intro hlive hended
    rintro ⟨info, hinfo, hid⟩
    rw [hnode] at hinfo
    exact h.silent hlive hended ⟨info, hinfo, hid⟩
  · intro hlive hended x reason' hmem
    rcases (mem_channel_put ..).1 hmem with hold | ⟨-, hnew⟩
    · exact h.abnormal hlive hended x reason' (mem_channel_taken hchannel hold)
    · cases hnew
  · intro hlive hended
    exact absurd hlive (harrives hended e he rfl rfl hunlinked)

/-- A linker that has ended removes its link. -/
theorem Secure.remove (hw : Wired net) (h : Secure net e) (he : e ∈ net.made)
    {rest : List (LinkMessage N)}
    (hchannel : net.channel e.localActorRef.systemId e.remoteNodeId =
      .remove e.linkRef.id e.remoteActorId :: rest)
    (hended : (net.node e.localActorRef.systemId).ended e.localActorRef.id ≠ none) :
    Secure ((RemoteLinkMessages.taken net e.localActorRef.systemId e.remoteNodeId rest).put
      e.remoteNodeId (received callbacks (net.node e.remoteNodeId) e.localActorRef.systemId
        (.remove e.linkRef.id e.remoteActorId))) e := by
  have hmade := hw.made e he
  constructor <;> rw [node_taken_put_ne hmade.remote.symm, node_put_self]
  iterate 4 exact fun hlive => absurd hlive.2 hended
  intro hlive hended
  obtain ⟨x, reason, hmem⟩ := h.linked hlive hended
  exact ⟨x, reason, (mem_channel_put ..).2 (.inl (mem_taken hchannel hmem nofun))⟩

theorem Secure.deliver (hw : Wired net) (h : Secure net e) (he : e ∈ net.made)
    (hunlinked : e.linkRef.id ∉ net.unlinked) {sender receiver : N} {message : LinkMessage N}
    {rest : List (LinkMessage N)} (hchannel : net.channel sender receiver = message :: rest)
    (harrives : Arrives net sender receiver message) :
    Secure ((RemoteLinkMessages.taken net sender receiver rest).put receiver
      (received callbacks (net.node receiver) sender message)) e := by
  by_cases hid : e.linkRef.id = about message
  swap
  · exact h.deliver_other hw hchannel hid
  have hfits : Fits net sender receiver message :=
    hw.channels sender receiver message (hchannel ▸ List.mem_cons_self)
  cases message with
  | add l linkerNodeId linkerActorId x trapExit =>
      obtain ⟨rfl, e', he', hid', rfl, rfl, rfl, rfl⟩ := hfits
      obtain rfl := hw.unique e' he' e he (hid'.trans hid.symm)
      subst hid'
      exact h.add hw he hunlinked hchannel harrives
  | added l x alreadyDead =>
      obtain ⟨e', he', hid', rfl, rfl, rfl, hdead⟩ := hfits
      obtain rfl := hw.unique e' he' e he (hid'.trans hid.symm)
      subst hid'
      cases alreadyDead with
      | false =>
          refine (h.taken hchannel fun hcarries => nomatch hcarries.2).put
            (fun _ => .refl e' _) (fun _ => .refl e' _) fun _ hp => by cases hp
      | true =>
          exact h.exits hw he hchannel (hdead rfl) _ _ fun hended hentry hlive =>
            .inl (harrives rfl hended e' hentry rfl hlive)
  | remove l x =>
      obtain ⟨e', he', hid', rfl, rfl, rfl, hwhy⟩ := hfits
      obtain rfl := hw.unique e' he' e he (hid'.trans hid.symm)
      subst hid'
      exact h.remove hw he hchannel (hwhy.resolve_left hunlinked)
  | exit l x reason =>
      obtain ⟨hdead, e', he', hid', hway⟩ := hfits
      obtain rfl := hw.unique e' he' e he (hid'.trans hid.symm)
      subst hid'
      rcases hway with ⟨rfl, rfl, rfl⟩ | ⟨rfl, rfl, rfl⟩
      · exact h.exit_lost hw he hunlinked hchannel harrives
      · refine h.exits hw he hchannel hdead _ _ fun hended _ hlive => .inr ?_
        exact h.abnormal hlive hended _ reason (hchannel ▸ List.mem_cons_self)

/-! ## Links are made -/

section
variable {localActorRef remoteActorRef : ActorRef N}

theorem Secure.link_other (h : Secure net e) (hmade : Made net e) :
    Secure ((withLink net localActorRef remoteActorRef).put k
      ({ net.node k with nextRef := net.nextRef }.setupRemoteLink localActorRef
        remoteActorRef)) e := by
  have hmarked : Secure (withLink net localActorRef remoteActorRef) e :=
    h.of_kept (.refl e _) (.refl e _) fun _ _ _ _ => Iff.rfl
  refine hmarked.put (fun _ => ?_) (fun _ => ?_) fun p hp hcarries => ?_
  · exact ⟨fun hlive => hlive, rfl, fun he => List.mem_append_left _ he, rfl⟩
  · exact ⟨fun hlive => hlive, rfl, fun _ _ => Iff.rfl⟩
  · rw [List.mem_singleton.1 hp] at hcarries
    exact absurd hcarries (Nat.ne_of_gt hmade.id)

/-- The request is on its way when the link has been made. -/
theorem secure_newLink (hw : Wired net) (hsystem : localActorRef.systemId = k)
    (hremote : remoteActorRef.systemId ≠ k)
    (hreports : Reports net (.link k localActorRef remoteActorRef)) :
    Secure ((withLink net localActorRef remoteActorRef).put k
      ({ net.node k with nextRef := net.nextRef }.setupRemoteLink localActorRef
        remoteActorRef)) (newLink net localActorRef remoteActorRef) := by
  subst hsystem
  have hfresh : ∀ e ∈ net.made, e.linkRef.id ≠ net.nextRef := fun e he =>
    Nat.ne_of_lt (hw.made e he).id
  have hentry : newLink net localActorRef remoteActorRef ∈
      (((withLink net localActorRef remoteActorRef).put localActorRef.systemId
        ({ net.node localActorRef.systemId with nextRef := net.nextRef }.setupRemoteLink
          localActorRef remoteActorRef)).node localActorRef.systemId).remoteLinks := by
    rw [node_put_self]
    exact List.mem_append_right _ (List.mem_singleton_self _)
  have hrequested : Requested ((withLink net localActorRef remoteActorRef).put
      localActorRef.systemId ({ net.node localActorRef.systemId with
        nextRef := net.nextRef }.setupRemoteLink localActorRef remoteActorRef))
      (newLink net localActorRef remoteActorRef) :=
    ⟨_, (mem_channel_put ..).2 (.inr ⟨rfl, List.mem_singleton_self _⟩)⟩
  refine ⟨fun _ _ => ⟨hentry, .inl hrequested⟩, fun _ _ => .inr ⟨hentry, .inl hrequested⟩,
    fun _ _ => ?_, fun _ _ x reason hmem => ?_, fun hlive hended => ?_⟩
  · rintro ⟨info, hinfo, hid⟩
    change info ∈ (LinkNetwork.node _ remoteActorRef.systemId).remoteLinkers _ at hinfo
    rw [node_put_ne hremote] at hinfo
    obtain ⟨e', he', hid', -⟩ := hw.linkers _ _ info hinfo
    exact hfresh e' he' (hid'.trans hid)
  · rcases (mem_channel_put ..).1 hmem with hold | ⟨-, hnew⟩
    · obtain ⟨-, e', he', hid', -⟩ := hw.channels _ _ _ hold
      exact absurd hid' (hfresh e' he')
    · cases congrArg Prod.snd (List.mem_singleton.1 hnew)
  · change Live (LinkNetwork.node _ remoteActorRef.systemId) _ at hlive
    change (LinkNetwork.node _ localActorRef.systemId).ended _ = _ at hended
    rw [node_put_ne hremote] at hlive
    rw [node_put_self] at hended
    exact absurd hlive (hreports hended)

end

/-! ## Runs -/

structure LinkRun (net : LinkNetwork N) : Prop where
  wired : Wired net
  secure : ∀ e ∈ net.made, e.linkRef.id ∉ net.unlinked → Secure net e

theorem LinkRun.step (h : LinkRun net) {a : LinkAction N} (hreports : Reports net a)
    (hst : net.step callbacks a = some net') : LinkRun net' := by
  refine ⟨h.wired.step hst, fun e he hunlinked => ?_⟩
  have hw := h.wired
  cases a with
  | spawn n =>
      cases hst
      exact (h.secure e he hunlinked).put (fun hk => linkerKept_spawn (hk ▸ (hw.made e he).linker))
        (fun hk => linkedKept_spawn (hk ▸ (hw.made e he).linked)) fun _ hp => by cases hp
  | setTrapExit n x trap =>
      cases hst
      exact (h.secure e he hunlinked).put
        (fun _ => ⟨fun hlive => hlive, rfl, fun hentry => hentry, rfl⟩)
        (fun _ => ⟨fun hlive => hlive, rfl, fun _ _ => Iff.rfl⟩) fun _ hp => by cases hp
  | link n localActorRef remoteActorRef =>
      obtain ⟨⟨hsystem, hactor, hremote, hlinked⟩, rfl⟩ := step_link hst
      rcases List.mem_append.1 he with hold | hnew
      · exact (h.secure e hold hunlinked).link_other (hw.made e hold)
      · rw [List.mem_singleton.1 hnew]
        exact secure_newLink hw hsystem hremote hreports
  | unlink n l =>
      obtain ⟨linkRef, hmade, rfl, rfl⟩ := step_unlink hw hst
      have hold : e.linkRef.id ∉ net.unlinked := fun hmem =>
        hunlinked (List.mem_append_left _ hmem)
      have hne : e.linkRef.id ≠ linkRef.id := fun heq =>
        hunlinked (List.mem_append_right _ (List.mem_singleton.2 heq))
      have hmarked : Secure (unlinking net linkRef.id) e :=
        (h.secure e he hold).of_kept (.refl e _) (.refl e _) fun _ _ _ _ => Iff.rfl
      refine hmarked.put (fun _ => linkerKept_unlink (hw.tables n) hmade hne)
        (fun _ => linkedKept_unlink (hw.tables n) hmade) fun p hp hcarries => ?_
      obtain ⟨e', -, -, rfl⟩ := mem_unlink hp
      exact hcarries
  | notifyLinkedActors n actorRef reason =>
      simp only [LinkNetwork.step] at hst
      split_ifs at hst with hactor
      cases hst
      exact (h.secure e he hunlinked).notifyLinkedActors hw he hactor reason
  | stopSingle n x =>
      simp only [LinkNetwork.step] at hst
      split_ifs at hst with hactor
      cases hst
      exact (h.secure e he hunlinked).stopSingle hw he hunlinked hactor hreports
  | remove n x =>
      simp only [LinkNetwork.step] at hst
      split_ifs at hst
      cases hst
      exact (h.secure e he hunlinked).put
        (fun _ => ⟨fun hlive => ⟨Finset.mem_of_mem_erase hlive.1, hlive.2⟩, rfl,
          fun hentry => hentry, rfl⟩)
        (fun _ => ⟨fun hlive => ⟨Finset.mem_of_mem_erase hlive.1, hlive.2⟩, rfl,
          fun _ _ => Iff.rfl⟩) fun _ hp => by cases hp
  | deliver sender receiver =>
      obtain ⟨message, rest, hchannel, rfl⟩ := step_deliver hst
      exact (h.secure e he hunlinked).deliver hw he hunlinked hchannel
        (hreports message (by rw [hchannel]; rfl))

omit [DecidableEq N] in
theorem bidirectional_of_run (h : LinkRun net) (he : e ∈ net.made)
    (hunlinked : e.linkRef.id ∉ net.unlinked) : Bidirectional net e := by
  have hsecure := h.secure e he hunlinked
  have honce : ∀ k', told (net.node k') e.linkRef.id ≤ 1 := by
    intro k'
    by_contra hmore
    have hheard := h.wired.heard k' e.linkRef.id (by omega)
    exact hmore hheard.1.le
  refine ⟨honce _, honce _, fun hlive hended => ?_, fun hlive hended => ?_⟩
  · exact (hsecure.announced hlive hended).imp_right And.right
  · exact .inr (hsecure.linked hlive hended)

/-- In a run whose steps meet the guard the actors of every remote link that no caller has
removed learn of each other's end. -/
theorem remote_links_bidirectional (callbacks : Callbacks N) {as : List (LinkAction N)}
    (hreports : Along (LinkNetwork.step callbacks) Reports .init as) :
    Throughout (LinkNetwork.step callbacks)
      (fun net => ∀ e ∈ net.made, e.linkRef.id ∉ net.unlinked → Bidirectional net e) .init as := by
  have hinit : LinkRun (.init : LinkNetwork N) := ⟨.init, fun _ he => by cases he⟩
  have hrun := throughout_of_invariant (fun _ _ _ h hreports hst => h.step hreports hst) hinit
    hreports
  exact hrun.mono fun _ h e he hunlinked => bidirectional_of_run h he hunlinked

end

/-! ## Who ends first -/

def silent : Callbacks Nat := ⟨fun _ _ => [], fun _ _ => false⟩

def linkerRef : ActorRef Nat := ⟨0, 0, none, 0⟩

def linkedRef : ActorRef Nat := ⟨1, 0, none, 0⟩

/-- An actor of node 0 links itself to one of node 1, which registers it. -/
def links : List (LinkAction Nat) :=
  [.spawn 0, .spawn 1, .link 0 linkerRef linkedRef, .deliver 0 1, .deliver 1 0]

/-- The linked actor ends first, and its node tells the other one. -/
def linkedFirst : List (LinkAction Nat) :=
  links ++ [.notifyLinkedActors 1 linkedRef (.error "boom"), .deliver 1 0]

theorem remote_links_bidirectional_linkedFirst :
    Throughout (LinkNetwork.step silent)
      (fun net => ∀ e ∈ net.made, e.linkRef.id ∉ net.unlinked → Bidirectional net e) .init
      linkedFirst := by
  refine remote_links_bidirectional silent ⟨trivial, fun t ht => ?_⟩
  cases ht
  refine ⟨trivial, fun t ht => ?_⟩
  cases ht
  refine ⟨nofun, fun t ht => ?_⟩
  cases ht
  refine ⟨?_, fun t ht => ?_⟩
  · rintro message ⟨⟩
    exact fun _ hended => nomatch hended
  cases ht
  refine ⟨?_, fun t ht => ?_⟩
  · rintro message ⟨⟩
    exact fun hdead => nomatch hdead
  cases ht
  refine ⟨trivial, fun t ht => ?_⟩
  cases ht
  refine ⟨?_, fun t ht => ?_⟩
  · rintro message ⟨⟩
    -- the exit comes from the node of the linked actor
    intro _ e he _ hsender
    rw [List.mem_singleton.1 he] at hsender
    cases hsender
  cases ht
  trivial

/-- The linker ends first, and the other node finds nothing to do. -/
def linkerFirst : List (LinkAction Nat) :=
  links ++ [.notifyLinkedActors 0 linkerRef (.error "boom"), .deliver 0 1]

/-- The linked actor is restarted, and nothing is sent. -/
def linkedRestarts : List (LinkAction Nat) := links ++ [.stopSingle 1 0]

/-- In both runs every message has arrived, one actor has ended abnormally, and the other
lives and is never told. -/
theorem linked_never_told :
    (∃ net, run (LinkNetwork.step silent) .init linkerFirst = some net ∧
      net.channel 0 1 = [] ∧ net.channel 1 0 = [] ∧
      ∃ e ∈ net.made, e.linkRef.id ∉ net.unlinked ∧ ¬ Bidirectional net e ∧
        (net.node 0).ended 0 = some true ∧ Live (net.node 1) 0 ∧
        told (net.node 1) e.linkRef.id = 0) ∧
    ∃ net, run (LinkNetwork.step silent) .init linkedRestarts = some net ∧
      net.channel 0 1 = [] ∧ net.channel 1 0 = [] ∧
      ∃ e ∈ net.made, e.linkRef.id ∉ net.unlinked ∧ ¬ Bidirectional net e ∧
        (net.node 1).ended 0 = some true ∧ Live (net.node 0) 0 ∧
        told (net.node 0) e.linkRef.id = 0 := by
  refine ⟨⟨_, rfl, rfl, rfl, ⟨⟨0, 0, 0⟩, linkerRef, 1, 0⟩, List.mem_singleton_self _,
      List.not_mem_nil, fun h => ?_, rfl, ⟨by decide, rfl⟩, rfl⟩,
    ⟨_, rfl, rfl, rfl, ⟨⟨0, 0, 0⟩, linkerRef, 1, 0⟩, List.mem_singleton_self _,
      List.not_mem_nil, fun h => ?_, rfl, ⟨by decide, rfl⟩, rfl⟩⟩
  · rcases h.linked ⟨by decide, rfl⟩ rfl with htold | ⟨x, reason, hmem⟩
    · cases htold
    · cases hmem
  · rcases h.linker ⟨by decide, rfl⟩ rfl with htold | ⟨trapExit, hmem⟩ | hmem | ⟨x, reason, hmem⟩
    · cases htold
    · cases hmem
    · cases hmem
    · cases hmem

end Libeam.Proofs.RemoteLinkEnds
