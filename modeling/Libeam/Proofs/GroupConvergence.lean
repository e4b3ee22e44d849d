import Libeam.Groups.ProcessGroup
/-!
# Process groups converge

For one group and one actor whose calls are all made on one node `p`, what `p`
holds is what its last call says, and what another node holds is what the updates
of `p` it has received say, unless the actor is its own: updates about those are
ignored.  So the nodes agree in the end exactly when `p` is the actor's node or
the actor has left.
-/

namespace Libeam.Proofs.GroupConvergence

open Lib Lib.Transition Libeam.System Groups

variable {N : Type}

/-! ## One manager -/

/-- The entry of an actor in a group. -/
def member (pg : ProcessGroupManager N) (group : String) (actorId : ActorId) :
    Option (GroupMember N) :=
  (pg.groups.get group).bind fun members => members.get actorId

/-- Entries stand under the id of their actor. -/
def Keyed (pg : ProcessGroupManager N) : Prop :=
  ∀ group actorId m, member pg group actorId = some m → m.actorId = actorId

theorem mem_getMembers {pg : ProcessGroupManager N} (h : Keyed pg) {group : String}
    {m : GroupMember N} :
    m ∈ pg.getMembers group ↔ member pg group m.actorId = some m := by
  unfold ProcessGroupManager.getMembers member
  unfold Keyed member at h
  cases hg : pg.groups.get group with
  | none => simp
  | some members =>
      simp only [Option.bind_some]
      constructor
      · intro hm
        obtain ⟨⟨k, m'⟩, hin, rfl⟩ := List.mem_map.1 hm
        have hget := OrderedMap.get_eq_some.2 hin
        have hkey := h group k m' (by rw [hg]; exact hget)
        dsimp only
        rw [hkey]
        exact hget
      · intro hget
        exact List.mem_map.2 ⟨(m.actorId, m), OrderedMap.get_eq_some.1 hget, rfl⟩

theorem member_put (pg : ProcessGroupManager N) (group group' : String)
    (m : GroupMember N) (actorId : ActorId) :
    member (pg.put group m) group' actorId =
      if group' = group ∧ actorId = m.actorId then some m
      else member pg group' actorId := by
  unfold member ProcessGroupManager.put
  dsimp only
  rw [OrderedMap.get_set]
  by_cases hg : group' = group
  · subst hg
    rw [if_pos rfl, Option.bind_some, OrderedMap.get_set]
    by_cases ha : actorId = m.actorId
    · rw [if_pos ha, if_pos ⟨rfl, ha⟩]
    · rw [if_neg ha, if_neg (fun h => ha h.2)]
      cases pg.groups.get group' <;> rfl
  · rw [if_neg hg, if_neg (fun h => hg h.1)]

theorem get_of_size_zero {κ ν : Type} [DecidableEq κ] {m : OrderedMap κ ν}
    (h : m.size = 0) (k : κ) : m.get k = none := by
  unfold OrderedMap.size at h
  unfold OrderedMap.get
  rw [List.length_eq_zero_iff.1 h]
  rfl

theorem member_remove {pg : ProcessGroupManager N} {group : String}
    {members : OrderedMap ActorId (GroupMember N)}
    (hget : pg.groups.get group = some members) (actorId actorId' : ActorId)
    (group' : String) :
    member (pg.remove group members actorId) group' actorId' =
      if group' = group ∧ actorId' = actorId then none
      else member pg group' actorId' := by
  have hrest := OrderedMap.get_delete members actorId actorId'
  unfold member ProcessGroupManager.remove
  dsimp only
  by_cases hsize : (members.delete actorId).size = 0
  · rw [if_pos hsize, OrderedMap.get_delete]
    by_cases hg : group' = group
    · subst hg
      have hnone := get_of_size_zero hsize actorId'
      rw [if_pos rfl, hget, Option.bind_some, Option.bind_none]
      simp only [true_and]
      rw [← hrest, hnone]
    · rw [if_neg hg, if_neg (fun h => hg h.1)]
  · rw [if_neg hsize, OrderedMap.get_set]
    by_cases hg : group' = group
    · subst hg
      rw [if_pos rfl, hget, Option.bind_some, Option.bind_some]
      simp only [true_and]
      rw [← hrest]
    · rw [if_neg hg, if_neg (fun h => hg h.1)]

/-- `leave` takes the entry away and publishes it, or there is none. -/
theorem leave_cases (pg : ProcessGroupManager N) (group : String) (actorId : ActorId) :
    (member pg group actorId = none ∧ pg.leave group actorId = (pg, none)) ∨
      ∃ m pg', member pg group actorId = some m ∧
        pg.leave group actorId = (pg', some ⟨.leave, group, m⟩) ∧
        pg'.nodeId = pg.nodeId ∧
        ∀ group' actorId', member pg' group' actorId' =
          if group' = group ∧ actorId' = actorId then none
          else member pg group' actorId' := by
  unfold ProcessGroupManager.leave
  cases hg : pg.groups.get group with
  | none => exact Or.inl ⟨by simp [member, hg], rfl⟩
  | some members =>
      cases hm : members.get actorId with
      | none => exact Or.inl ⟨by simp [member, hg, hm], by simp [hm]⟩
      | some m =>
          refine Or.inr ⟨m, pg.remove group members actorId, by simp [member, hg, hm],
            by simp [hm], rfl, fun group' actorId' => ?_⟩
          exact member_remove hg actorId actorId' group'

/-- What an update says about its actor. -/
def said (update : ProcessGroupUpdate N) : Option (GroupMember N) :=
  match update.type with
  | .join => some update.member
  | .leave => none

variable [DecidableEq N]

theorem member_handleUpdate (pg : ProcessGroupManager N) (update : ProcessGroupUpdate N)
    (group : String) (actorId : ActorId) :
    member (pg.handleUpdate update) group actorId =
      if update.member.nodeId ≠ pg.nodeId ∧ group = update.group ∧
        actorId = update.member.actorId then said update
      else member pg group actorId := by
  unfold ProcessGroupManager.handleUpdate
  by_cases hown : update.member.nodeId = pg.nodeId
  · rw [if_pos hown, if_neg (fun h => h.1 hown)]
  · rw [if_neg hown]
    simp only [ne_eq, hown, not_false_iff, true_and, said]
    cases update.type with
    | join => exact member_put pg update.group group update.member actorId
    | leave =>
        dsimp only
        cases hg : pg.groups.get update.group with
        | none =>
            split_ifs with h
            · rw [h.1]
              simp [member, hg]
            · rfl
        | some members => exact member_remove hg update.member.actorId actorId group

@[simp] theorem nodeId_handleUpdate (pg : ProcessGroupManager N)
    (update : ProcessGroupUpdate N) : (pg.handleUpdate update).nodeId = pg.nodeId := by
  unfold ProcessGroupManager.handleUpdate
  split_ifs
  · rfl
  · cases update.type with
    | join => rfl
    | leave => cases pg.groups.get update.group <;> rfl

/-! ## What the updates of a publisher say -/

theorem getLast?_filter_concat {α : Type} (p : α → Bool) (l : List α) (a : α) :
    ((l ++ [a]).filter p).getLast? =
      if p a = true then some a else (l.filter p).getLast? := by
  rw [List.filter_append]
  cases hp : p a <;> simp [hp]

/-- The updates about the actor in the group. -/
def about (group : String) (actorId : ActorId) (update : ProcessGroupUpdate N) : Bool :=
  update.group = group ∧ update.member.actorId = actorId

/-- The entry that a reader of the updates ends with. -/
def view (group : String) (actorId : ActorId) (updates : List (ProcessGroupUpdate N)) :
    Option (GroupMember N) :=
  (updates.filter (about group actorId)).getLast?.bind said

omit [DecidableEq N] in
theorem view_concat (group : String) (actorId : ActorId)
    (updates : List (ProcessGroupUpdate N)) (update : ProcessGroupUpdate N) :
    view group actorId (updates ++ [update]) =
      if about group actorId update = true then said update
      else view group actorId updates := by
  unfold view
  rw [getLast?_filter_concat]
  split_ifs <;> rfl

/-! ## The calls about one actor in one group -/

/-- What the last call about the actor in the group says. -/
def wanted (s : GroupCluster N) (group : String) (actorId : ActorId) :
    Option (GroupMember N) :=
  (s.calls.filter fun c => c.group = group ∧ c.actorId = actorId).getLast?.bind
    GroupCall.joined

/-- All calls about the actor in the group are made on `p`. -/
def OneNode (s : GroupCluster N) (group : String) (actorId : ActorId) (p : N) : Prop :=
  ∀ c ∈ s.calls, c.group = group → c.actorId = actorId → c.node = p

omit [DecidableEq N] in
theorem wanted_concat {s t : GroupCluster N} {c : GroupCall N}
    (h : t.calls = s.calls ++ [c]) (group : String) (actorId : ActorId) :
    wanted t group actorId =
      if c.group = group ∧ c.actorId = actorId then c.joined
      else wanted s group actorId := by
  unfold wanted
  rw [h, getLast?_filter_concat]
  simp only [decide_eq_true_eq]
  split_ifs <;> rfl

/-! ## The invariant -/

/-- Facts about every update and every entry. -/
structure Sound (home : ActorId → N) (s : GroupCluster N) : Prop where
  nodeId_eq : ∀ n, (s.node n).nodeId = n
  entry_eq : ∀ n group actorId m, member (s.node n) group actorId = some m →
    m.actorId = actorId ∧ m.nodeId = home actorId
  update_eq : ∀ n, ∀ u ∈ s.published n,
    u.member.nodeId = home u.member.actorId ∧
      ∃ c ∈ s.calls, c.node = n ∧ c.group = u.group ∧ c.actorId = u.member.actorId
  received_le : ∀ q p, s.received q p ≤ (s.published p).length

/-- The caller holds what its last call says and has published as much, and the
others hold what they have received. -/
structure Follows (home : ActorId → N) (s : GroupCluster N) (group : String)
    (actorId : ActorId) (p : N) : Prop where
  caller : member (s.node p) group actorId = wanted s group actorId
  published : view group actorId (s.published p) = wanted s group actorId
  receiver : ∀ q, q ≠ p → member (s.node q) group actorId =
    if home actorId = q then none
    else view group actorId ((s.published p).take (s.received q p))

/-! ## A call -/

/-- What a call of `join` or `leave` changes. -/
structure Called (home : ActorId → N) (s t : GroupCluster N) (c : GroupCall N) :
    Prop where
  node_ne : ∀ q, q ≠ c.node → t.node q = s.node q
  nodeId_eq : (t.node c.node).nodeId = (s.node c.node).nodeId
  entry : ∀ group actorId, member (t.node c.node) group actorId =
    if group = c.group ∧ actorId = c.actorId then c.joined
    else member (s.node c.node) group actorId
  published_ne : ∀ q, q ≠ c.node → t.published q = s.published q
  published : (t.published c.node = s.published c.node ∧
      member (s.node c.node) c.group c.actorId = c.joined) ∨
    ∃ u, t.published c.node = s.published c.node ++ [u] ∧ u.group = c.group ∧
      u.member.actorId = c.actorId ∧ u.member.nodeId = home c.actorId ∧
      said u = c.joined
  received : t.received = s.received
  calls : t.calls = s.calls ++ [c]
  joined : ∀ m, c.joined = some m → m.actorId = c.actorId ∧ m.nodeId = home c.actorId

variable {home : ActorId → N} {s t : GroupCluster N}

theorem called_join (n : N) (group : String) (actorId : ActorId) (name : Option String) :
    Called home s (s.join n group ⟨home actorId, actorId, name⟩)
      ⟨n, group, actorId, some ⟨home actorId, actorId, name⟩⟩ where
  node_ne q hq := Function.update_of_ne hq _ _
  nodeId_eq := by simp [GroupCluster.join, ProcessGroupManager.join,
    ProcessGroupManager.put]
  entry group' actorId' := by
    simp only [GroupCluster.join, ProcessGroupManager.join, Function.update_self]
    exact member_put (s.node n) group group' ⟨home actorId, actorId, name⟩ actorId'
  published_ne q hq := Function.update_of_ne hq _ _
  published := by
    refine Or.inr ⟨⟨.join, group, ⟨home actorId, actorId, name⟩⟩, ?_, rfl, rfl, rfl, rfl⟩
    simp [GroupCluster.join, ProcessGroupManager.join]
  received := rfl
  calls := rfl
  joined m hm := by
    obtain rfl := Option.some.inj hm
    exact ⟨rfl, rfl⟩

theorem called_leave (h : Sound home s) (n : N) (group : String) (actorId : ActorId) :
    Called home s (s.leave n group actorId) ⟨n, group, actorId, none⟩ := by
  unfold GroupCluster.leave
  obtain ⟨hnone, hleave⟩ | ⟨m, pg, hm, hleave, hid, hentry⟩ :=
    leave_cases (s.node n) group actorId
  · rw [hleave]
    refine ⟨fun q hq => Function.update_of_ne hq _ _, ?_, fun group' actorId' => ?_,
      fun q hq => Function.update_of_ne hq _ _, Or.inl ⟨?_, hnone⟩, rfl, rfl,
      fun m hm => absurd hm (Option.some_ne_none m).symm⟩
    · simp
    · simp only [Function.update_self]
      split_ifs with hsame
      · rw [hsame.1, hsame.2, hnone]
      · rfl
    · simp
  · obtain ⟨hkey, hhome⟩ := h.entry_eq n group actorId m hm
    rw [hleave]
    refine ⟨fun q hq => Function.update_of_ne hq _ _, ?_, fun group' actorId' => ?_,
      fun q hq => Function.update_of_ne hq _ _,
      Or.inr ⟨⟨.leave, group, m⟩, ?_, rfl, hkey, hhome, rfl⟩, rfl, rfl,
      fun m hm => absurd hm (Option.some_ne_none m).symm⟩
    · simp [hid]
    · simp only [Function.update_self]
      exact hentry group' actorId'
    · simp

theorem Called.sound {c : GroupCall N} (hcall : Called home s t c) (h : Sound home s) :
    Sound home t where
  nodeId_eq n := by
    by_cases hn : n = c.node
    · rw [hn, hcall.nodeId_eq, h.nodeId_eq]
    · rw [hcall.node_ne n hn, h.nodeId_eq]
  entry_eq n group actorId m hm := by
    by_cases hn : n = c.node
    · rw [hn, hcall.entry] at hm
      split_ifs at hm with hsame
      · rw [hsame.2]
        exact hcall.joined m hm
      · exact h.entry_eq c.node group actorId m hm
    · rw [hcall.node_ne n hn] at hm
      exact h.entry_eq n group actorId m hm
  update_eq n u hu := by
    have hold : u ∈ s.published n → u.member.nodeId = home u.member.actorId ∧
        ∃ c' ∈ t.calls, c'.node = n ∧ c'.group = u.group ∧
          c'.actorId = u.member.actorId := by
      intro hu
      obtain ⟨hhome, c', hc', hrest⟩ := h.update_eq n u hu
      refine ⟨hhome, c', ?_, hrest⟩
      rw [hcall.calls]
      exact List.mem_append_left _ hc'
    by_cases hn : n = c.node
    · subst hn
      obtain ⟨heq, -⟩ | ⟨u', heq, hgroup, hactor, hhome, -⟩ := hcall.published
      · rw [heq] at hu
        exact hold hu
      · rw [heq] at hu
        obtain hu | hu := List.mem_append.1 hu
        · exact hold hu
        · rw [List.mem_singleton.1 hu]
          refine ⟨by rw [hhome, hactor], c, ?_, rfl, hgroup.symm, hactor.symm⟩
          rw [hcall.calls]
          exact List.mem_append_right _ (List.mem_singleton_self c)
    · rw [hcall.published_ne n hn] at hu
      exact hold hu
  received_le q p := by
    have hle := h.received_le q p
    rw [hcall.received]
    by_cases hp : p = c.node
    · subst hp
      obtain ⟨heq, -⟩ | ⟨u, heq, -⟩ := hcall.published
      · rwa [heq]
      · rw [heq, List.length_append]
        omega
    · rwa [hcall.published_ne p hp]

omit [DecidableEq N] in
theorem Called.oneNode {c : GroupCall N} (hcall : Called home s t c) {group : String}
    {actorId : ActorId} {p : N} (h : OneNode t group actorId p) :
    OneNode s group actorId p := by
  intro c' hc'
  apply h c'
  rw [hcall.calls]
  exact List.mem_append_left _ hc'

theorem Called.follows {c : GroupCall N} (hcall : Called home s t c) (hsound : Sound home s)
    {group : String} {actorId : ActorId} {p : N} (hone : OneNode t group actorId p)
    (h : Follows home s group actorId p) : Follows home t group actorId p := by
  have hwanted := wanted_concat hcall.calls group actorId
  -- the receivers have not read what the call adds
  have htake : ∀ q, (t.published p).take (t.received q p) =
      (s.published p).take (s.received q p) := by
    intro q
    rw [hcall.received]
    by_cases hp : p = c.node
    · subst hp
      obtain ⟨heq, -⟩ | ⟨u, heq, -⟩ := hcall.published
      · rw [heq]
      · rw [heq, List.take_append_of_le_length (hsound.received_le q c.node)]
    · rw [hcall.published_ne p hp]
  by_cases habout : c.group = group ∧ c.actorId = actorId
  · obtain rfl : c.node = p := by
      apply hone c _ habout.1 habout.2
      rw [hcall.calls]
      exact List.mem_append_right _ (List.mem_singleton_self c)
    rw [if_pos habout] at hwanted
    obtain ⟨rfl, rfl⟩ := habout
    refine ⟨?_, ?_, fun q hq => ?_⟩
    · rw [hwanted, hcall.entry, if_pos ⟨rfl, rfl⟩]
    · obtain ⟨heq, hheld⟩ | ⟨u, heq, hgroup, hactor, -, hsaid⟩ := hcall.published
      · rw [heq, h.published, ← h.caller, hheld, hwanted]
      · rw [heq, view_concat, if_pos (by simp [about, hgroup, hactor]), hsaid, hwanted]
    · rw [htake, hcall.node_ne q hq]
      exact h.receiver q hq
  · rw [if_neg habout] at hwanted
    have hentry : ∀ q, member (t.node q) group actorId =
        member (s.node q) group actorId := by
      intro q
      by_cases hq : q = c.node
      · rw [hq, hcall.entry, if_neg (fun hsame => habout ⟨hsame.1.symm, hsame.2.symm⟩)]
      · rw [hcall.node_ne q hq]
    refine ⟨by rw [hentry, hwanted, h.caller], ?_, fun q hq => ?_⟩
    · rw [hwanted, ← h.published]
      by_cases hp : p = c.node
      · subst hp
        obtain ⟨heq, -⟩ | ⟨u, heq, hgroup, hactor, -⟩ := hcall.published
        · rw [heq]
        · rw [heq, view_concat, if_neg (by simpa [about, hgroup, hactor] using habout)]
      · rw [hcall.published_ne p hp]
    · rw [hentry, htake]
      exact h.receiver q hq

/-! ## A delivery -/

theorem deliver_eq {q p : N} (hst : s.deliver q p = some t) :
    q ≠ p ∧ ∃ u, (s.published p)[s.received q p]? = some u ∧
      t = { s with
        node := Function.update s.node q ((s.node q).handleUpdate u)
        received := Function.update s.received q
          (Function.update (s.received q) p (s.received q p + 1)) } := by
  unfold GroupCluster.deliver at hst
  split_ifs at hst with hsame
  obtain ⟨u, hu, rfl⟩ := Option.map_eq_some_iff.1 hst
  exact ⟨hsame, u, hu, rfl⟩

theorem sound_deliver (h : Sound home s) {q p : N} (hst : s.deliver q p = some t) :
    Sound home t := by
  obtain ⟨-, u, hu, rfl⟩ := deliver_eq hst
  obtain ⟨hhome, -⟩ := h.update_eq p u (List.mem_of_getElem? hu)
  refine ⟨fun n => ?_, fun n group actorId m hm => ?_, h.update_eq, fun q' p' => ?_⟩
  · by_cases hn : n = q
    · subst hn
      simp only [Function.update_self, nodeId_handleUpdate]
      exact h.nodeId_eq n
    · simp only [Function.update_of_ne hn]
      exact h.nodeId_eq n
  · by_cases hn : n = q
    · subst hn
      simp only [Function.update_self] at hm
      rw [member_handleUpdate] at hm
      split_ifs at hm with hsame
      · have hmember : u.member = m := by
          unfold said at hm
          cases htype : u.type with
          | join => simpa [htype] using hm
          | leave => simp [htype] at hm
        rw [← hmember, hsame.2.2]
        exact ⟨rfl, hhome⟩
      · exact h.entry_eq n group actorId m hm
    · simp only [Function.update_of_ne hn] at hm
      exact h.entry_eq n group actorId m hm
  · have hlt := (List.getElem?_eq_some_iff.1 hu).1
    have hle := h.received_le q' p'
    dsimp only
    by_cases hq : q' = q
    · subst hq
      rw [Function.update_self]
      by_cases hp : p' = p
      · subst hp
        rw [Function.update_self]
        exact hlt
      · rwa [Function.update_of_ne hp]
    · rwa [Function.update_of_ne hq]

theorem follows_deliver (hsound : Sound home s) {q' p' : N}
    (hst : s.deliver q' p' = some t) {group : String} {actorId : ActorId} {p : N}
    (hone : OneNode t group actorId p) (h : Follows home s group actorId p) :
    Follows home t group actorId p := by
  obtain ⟨hne, u, hu, rfl⟩ := deliver_eq hst
  obtain ⟨hhome, c, hc, hnode, hgroup, hactor⟩ :=
    hsound.update_eq p' u (List.mem_of_getElem? hu)
  -- only the caller publishes about the actor
  have hforeign : p' ≠ p → ¬ (group = u.group ∧ actorId = u.member.actorId) := by
    rintro hp ⟨rfl, rfl⟩
    exact hp (hnode.symm.trans (hone c hc hgroup hactor))
  refine ⟨?_, h.published, fun q hq => ?_⟩
  · by_cases hsame : p = q'
    · subst hsame
      simp only [Function.update_self]
      rw [member_handleUpdate, if_neg (fun hall => hforeign (Ne.symm hne) hall.2)]
      exact h.caller
    · simp only [Function.update_of_ne hsame]
      exact h.caller
  · by_cases hsame : q = q'
    · subst hsame
      simp only [Function.update_self]
      rw [member_handleUpdate, hsound.nodeId_eq, h.receiver q hq]
      by_cases hp : p' = p
      · subst hp
        rw [Function.update_self, List.take_add_one, hu, Option.toList_some,
          view_concat]
        by_cases habout : group = u.group ∧ actorId = u.member.actorId
        · obtain ⟨rfl, rfl⟩ := habout
          simp only [about, and_self, decide_true, if_true, and_true, hhome]
          by_cases hown : home u.member.actorId = q <;> simp [hown]
        · have hout : about group actorId u = false := by
            simp only [about, decide_eq_false_iff_not]
            exact fun hall => habout ⟨hall.1.symm, hall.2.symm⟩
          rw [if_neg (fun hall => habout hall.2), hout]
          simp
      · rw [if_neg (fun hall => hforeign hp hall.2), Function.update_of_ne (Ne.symm hp)]
    · simp only [Function.update_of_ne hsame]
      exact h.receiver q hq

/-! ## Runs -/

/-- The invariant, for one actor in one group. -/
def Inv (home : ActorId → N) (group : String) (actorId : ActorId) (p : N)
    (s : GroupCluster N) : Prop :=
  Sound home s ∧ (OneNode s group actorId p → Follows home s group actorId p)

theorem inv_init (home : ActorId → N) (group : String) (actorId : ActorId) (p : N) :
    Inv home group actorId p GroupCluster.init := by
  have hnone : ∀ n group actorId,
      member ((GroupCluster.init : GroupCluster N).node n) group actorId = none := by
    intro n group actorId
    rfl
  refine ⟨⟨fun n => rfl, fun n group actorId m hm => ?_, fun n u hu => ?_,
    fun q p => Nat.le_refl 0⟩, fun _ => ⟨rfl, rfl, fun q _ => ?_⟩⟩
  · rw [hnone] at hm
    cases hm
  · exact absurd hu List.not_mem_nil
  · rw [hnone]
    split_ifs <;> rfl

theorem Called.inv {c : GroupCall N} (hcall : Called home s t c) {group : String}
    {actorId : ActorId} {p : N} (h : Inv home group actorId p s) :
    Inv home group actorId p t :=
  ⟨hcall.sound h.1, fun hone => hcall.follows h.1 hone (h.2 (hcall.oneNode hone))⟩

theorem Inv.step {group : String} {actorId : ActorId} {p : N}
    (h : Inv home group actorId p s) {a : GroupAction N}
    (hst : s.step home a = some t) : Inv home group actorId p t := by
  cases a with
  | join n group' actorId' name =>
      obtain rfl := Option.some.inj hst
      exact (called_join n group' actorId' name).inv h
  | leave n group' actorId' =>
      obtain rfl := Option.some.inj hst
      exact (called_leave h.1 n group' actorId').inv h
  | leaveAll n actorId' =>
      obtain rfl := Option.some.inj hst
      have hfold : ∀ (groups : List (String × OrderedMap ActorId (GroupMember N)))
          (s : GroupCluster N), Inv home group actorId p s →
          Inv home group actorId p
            (groups.foldl (fun s e => s.leave n e.1 actorId') s) := by
        intro groups
        induction groups with
        | nil => exact fun s h => h
        | cons e groups ih =>
            exact fun s h => ih _ ((called_leave h.1 n e.1 actorId').inv h)
      exact hfold _ s h
  | deliver q' p' =>
      have hcalls : t.calls = s.calls := by
        obtain ⟨-, u, -, rfl⟩ := deliver_eq hst
        rfl
      refine ⟨sound_deliver h.1 hst, fun hone => follows_deliver h.1 hst hone (h.2 ?_)⟩
      rw [OneNode, hcalls] at hone
      exact hone

/-! ## Convergence -/

/-- Every update has reached every other node. -/
def Delivered (s : GroupCluster N) : Prop :=
  ∀ q p, q ≠ p → s.received q p = (s.published p).length

/-- Every node lists exactly the members whose last call was a join. -/
def Converged (s : GroupCluster N) : Prop :=
  ∀ n group m, m ∈ (s.node n).getMembers group ↔ wanted s group m.actorId = some m

/-- When all updates are delivered and the calls about each actor in each group
were made on one node, the nodes list the members whose last call was a join if
and only if each of these was made on the node of its actor. -/
theorem groups_converge_iff {as : List (GroupAction N)}
    (hrun : run (GroupCluster.step home) GroupCluster.init as = some s)
    (hone : ∀ group actorId, ∃ p, OneNode s group actorId p) (hall : Delivered s) :
    Converged s ↔ ∀ c ∈ s.calls, wanted s c.group c.actorId ≠ none →
      c.node = home c.actorId := by
  have hinv : ∀ group actorId p, Inv home group actorId p s := fun group actorId p =>
    run_invariant' (fun _ _ _ h hst => h.step hst) (inv_init home group actorId p) hrun
  have hsound : ∀ n, Keyed (s.node n) := fun n group actorId m hm =>
    ((hinv group actorId n).1.entry_eq n group actorId m hm).1
  -- what a node ends up with
  have hends : ∀ group actorId p, OneNode s group actorId p → ∀ q,
      member (s.node q) group actorId =
        if q ≠ p ∧ home actorId = q then none else wanted s group actorId := by
    intro group actorId p hp q
    have hfollows := (hinv group actorId p).2 hp
    by_cases hq : q = p
    · rw [if_neg (fun h => h.1 hq), hq, hfollows.caller]
    · rw [hfollows.receiver q hq, hall q p hq, List.take_length, hfollows.published]
      simp only [ne_eq, hq, not_false_iff, true_and]
  constructor
  · intro hconv c hc hwanted
    obtain ⟨m, hm⟩ := Option.ne_none_iff_exists'.1 hwanted
    obtain ⟨p, hp⟩ := hone c.group c.actorId
    have hcaller := ((hinv c.group c.actorId p).2 hp).caller
    rw [hm] at hcaller
    obtain ⟨hkey, -⟩ := (hinv c.group c.actorId p).1.entry_eq p _ _ m hcaller
    obtain rfl := hp c hc rfl rfl
    by_contra hne
    have hin := (hconv (home c.actorId) c.group m).2 (by rw [hkey]; exact hm)
    rw [mem_getMembers (hsound _), hkey, hends c.group c.actorId c.node hp,
      if_pos ⟨Ne.symm hne, rfl⟩] at hin
    cases hin
  · intro hhome q group m
    obtain ⟨p, hp⟩ := hone group m.actorId
    rw [mem_getMembers (hsound q), hends group m.actorId p hp]
    split_ifs with hq
    · -- the actor's own node missed the calls, so the last one is no join
      have hnone : wanted s group m.actorId = none := by
        by_contra hne
        obtain ⟨m', hm'⟩ := Option.ne_none_iff_exists'.1 hne
        unfold wanted at hm'
        obtain ⟨c, hlast, -⟩ := Option.bind_eq_some_iff.1 hm'
        have hc := List.mem_filter.1 (List.mem_of_getLast? hlast)
        simp only [decide_eq_true_eq] at hc
        obtain ⟨hc, hgroup, hactor⟩ := hc
        have hnode := hhome c hc (by rw [hgroup, hactor]; exact hne)
        rw [hp c hc hgroup hactor, hactor] at hnode
        exact hq.1 (hq.2.symm.trans hnode.symm)
      simp [hnone]
    · rfl

/-- An actor that joins on its own node. -/
theorem groups_converge_home :
    ∃ s : GroupCluster Bool,
      run (GroupCluster.step fun _ => true) GroupCluster.init
        [.join true "workers" 7 none, .deliver false true] = some s ∧ Converged s := by
  have hrun : ∃ s : GroupCluster Bool,
      run (GroupCluster.step fun _ => true) GroupCluster.init
        [.join true "workers" 7 none, .deliver false true] = some s ∧
      s.calls = [⟨true, "workers", 7, some ⟨true, 7, none⟩⟩] ∧
      s.received true false = (s.published false).length ∧
      s.received false true = (s.published true).length := ⟨_, rfl, rfl, rfl, rfl⟩
  obtain ⟨s, hrun, hcalls, htrue, hfalse⟩ := hrun
  have hone : ∀ group actorId, ∃ p, OneNode s group actorId p := by
    intro group actorId
    refine ⟨true, fun c hc _ _ => ?_⟩
    rw [hcalls] at hc
    rw [List.mem_singleton.1 hc]
  have hall : Delivered s := by
    intro q p hne
    cases q <;> cases p
    · exact absurd rfl hne
    · exact hfalse
    · exact htrue
    · exact absurd rfl hne
  refine ⟨s, hrun, (groups_converge_iff hrun hone hall).2 fun c hc _ => ?_⟩
  rw [hcalls] at hc
  rw [List.mem_singleton.1 hc]

/-- The node `false` adds an actor of the node `true` to a group.  The update
arrives and is ignored: only the caller lists the actor. -/
theorem remote_join_ignored :
    ∃ s : GroupCluster Bool,
      run (GroupCluster.step fun _ => true) GroupCluster.init
        [.join false "workers" 7 none, .deliver true false] = some s ∧
      (∀ group actorId, OneNode s group actorId false) ∧ Delivered s ∧
      (s.node false).getMembers "workers" = [⟨true, 7, none⟩] ∧
      (s.node true).getMembers "workers" = [] ∧ ¬ Converged s := by
  have hrun : ∃ s : GroupCluster Bool,
      run (GroupCluster.step fun _ => true) GroupCluster.init
        [.join false "workers" 7 none, .deliver true false] = some s ∧
      s.calls = [⟨false, "workers", 7, some ⟨true, 7, none⟩⟩] ∧
      s.received true false = (s.published false).length ∧
      s.received false true = (s.published true).length ∧
      (s.node false).getMembers "workers" = [⟨true, 7, none⟩] ∧
      (s.node true).getMembers "workers" = [] ∧
      wanted s "workers" 7 = some ⟨true, 7, none⟩ :=
    ⟨_, rfl, rfl, rfl, rfl, rfl, rfl, rfl⟩
  obtain ⟨s, hrun, hcalls, htrue, hfalse, hlists, hempty, hwanted⟩ := hrun
  refine ⟨s, hrun, fun group actorId c hc _ _ => ?_, fun q p hne => ?_, hlists, hempty,
    fun hconv => ?_⟩
  · rw [hcalls] at hc
    rw [List.mem_singleton.1 hc]
  · cases q <;> cases p
    · exact absurd rfl hne
    · exact hfalse
    · exact htrue
    · exact absurd rfl hne
  · have hin := (hconv true "workers" ⟨true, 7, none⟩).2 hwanted
    rw [hempty] at hin
    cases hin

end Libeam.Proofs.GroupConvergence
