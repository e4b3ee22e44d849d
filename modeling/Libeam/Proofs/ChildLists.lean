import Libeam.Proofs.Orphans
/-!
# What stands on the lists of a parent

A reference comes onto the set and the list of a parent together with a child, and has
to come off both when the child goes.  `ListedHere` says this of children on this node,
`ListedElsewhere` of children on other nodes, which are known by their entries.  Both
survive every operation but a few; the hypotheses of the lemmas name them.
-/

namespace Libeam.Proofs.ChildLists

open Libeam.System (ActorId)
open Supervision TreeTables TreeSteps
open RestartFrames (actors_dropRemoteChild actors_replaceRemoteChild)
open StopCascade

variable {N V : Type}

/-- The reference is in the set or on the list of `q`. -/
def OnLists (t : Tables N V) (q : ActorId) (c : ActorRef N) : Prop :=
  c ∈ (t.context q).children ∨ c ∈ (t.context q).childOrder

/-- References to this node on the lists of a live actor are those of live children that
no stop has taken off. -/
def ListedHere (t : Tables N V) : Prop :=
  ∀ q ∈ t.actors, ∀ c, OnLists t q c → c.systemId = t.id → c.id ∈ t.actors ∧ c.id ∉ t.detached

/-- References to other nodes on the lists of a live actor have entries. -/
def ListedElsewhere (t : Tables N V) : Prop :=
  ∀ q ∈ t.actors, ∀ c, OnLists t q c → c.systemId ≠ t.id →
    ∃ e ∈ t.remoteChildren, e.childRef = c ∧ e.parentRef.id = q

section
variable {t : Tables N V}

theorem OnLists.childRef (hsound : Sound t) {q : ActorId} {c : ActorRef N}
    (h : OnLists t q c) : ChildRef t q c := by
  rcases h with h | h
  · exact (hsound.contexts q).children c h
  · exact (hsound.contexts q).order c h

/-! ## New actors -/

theorem onLists_register {m : ActorMetadata N V} {first : Option ActorId} {q : ActorId}
    {c : ActorRef N} (h : OnLists (t.register m first) q c) : q ≠ t.nextId ∧ OnLists t q c := by
  unfold OnLists at h
  by_cases hq : q = t.nextId
  · rw [hq, show (t.register m first).context t.nextId = ⟨[], []⟩ from
      Function.update_self _ _ _] at h
    rcases h with h | h
    · exact (List.not_mem_nil h).elim
    · exact (List.not_mem_nil h).elim
  · rw [show (t.register m first).context q = t.context q from Function.update_of_ne hq _ _] at h
    exact ⟨hq, h⟩

theorem onLists_listChild {p q : ActorId} {d c : ActorRef N}
    (h : OnLists (t.listChild p d) q c) : OnLists t q c ∨ q = p ∧ c = d := by
  unfold OnLists at h
  by_cases hq : q = p
  · subst hq
    simp only [Tables.listChild, Function.update_self, List.mem_append, List.mem_singleton] at h
    rcases h with (h | h) | (h | h)
    · exact .inl (.inl h)
    · exact .inr ⟨rfl, h⟩
    · exact .inl (.inr h)
    · exact .inr ⟨rfl, h⟩
  · simp only [Tables.listChild, Function.update_of_ne hq] at h
    exact .inl h

theorem listedHere_register (h : ListedHere t) {m : ActorMetadata N V} {first : Option ActorId} :
    ListedHere (t.register m first) := by
  intro q hq c hc hhere
  obtain ⟨hne, hc⟩ := onLists_register hc
  obtain ⟨hlive, hdetached⟩ := h q ((Finset.mem_insert.1 hq).resolve_left hne) c hc hhere
  exact ⟨Finset.mem_insert_of_mem hlive, hdetached⟩

theorem listedElsewhere_register (h : ListedElsewhere t) {m : ActorMetadata N V}
    {first : Option ActorId} : ListedElsewhere (t.register m first) := by
  intro q hq c hc helse
  obtain ⟨hne, hc⟩ := onLists_register hc
  exact h q ((Finset.mem_insert.1 hq).resolve_left hne) c hc helse

theorem listedHere_spawnChild (h : ListedHere t) (hlt : ∀ x ∈ t.detached, x < t.nextId)
    {p : ActorRef N} {actorClass : String} {options : SpawnOptions V} {first : Option ActorId} :
    ListedHere (t.spawnChild p actorClass options first) := by
  unfold Tables.spawnChild
  split_ifs
  · intro q hq c hc hhere
    rcases onLists_listChild hc with hc | ⟨-, rfl⟩
    · exact listedHere_register h q hq c hc hhere
    · exact ⟨Finset.mem_insert_self _ _, fun hin => absurd (hlt _ hin) (Nat.lt_irrefl _)⟩
  · exact h

theorem listedElsewhere_spawnChild (h : ListedElsewhere t) {p : ActorRef N} {actorClass : String}
    {options : SpawnOptions V} {first : Option ActorId} :
    ListedElsewhere (t.spawnChild p actorClass options first) := by
  unfold Tables.spawnChild
  split_ifs
  · intro q hq c hc helse
    rcases onLists_listChild hc with hc | ⟨-, rfl⟩
    · exact listedElsewhere_register h q hq c hc helse
    · exact absurd rfl helse
  · exact h

/-! ## Removal -/

theorem listedHere_remove (h : ListedHere t) {x : ActorId}
    (hx : ∀ q ∈ t.actors, ∀ c, OnLists t q c → c.systemId = t.id → c.id ≠ x) :
    ListedHere (t.remove x) := by
  intro q hq c hc hhere
  have hq := Finset.mem_of_mem_erase hq
  obtain ⟨hlive, hdetached⟩ := h q hq c hc hhere
  exact ⟨Finset.mem_erase.2 ⟨hx q hq c hc hhere, hlive⟩, hdetached⟩

theorem listedElsewhere_remove (h : ListedElsewhere t) (x : ActorId) :
    ListedElsewhere (t.remove x) :=
  fun q hq c hc helse => h q (Finset.mem_of_mem_erase hq) c hc helse

variable [DecidableEq N]

/-! ## Leaving the lists -/

/-- What is still there when a reference has left the set and the list. -/
theorem mem_unlisted {p : ActorId} {ctx : ActorContext N} (hctx : SoundContext t p ctx)
    {d c : ActorRef N}
    (h : c ∈ ctx.children.erase d ∨ c ∈ ctx.childOrder.eraseP fun r => r.id = d.id) :
    (c ∈ ctx.children ∨ c ∈ ctx.childOrder) ∧ c ≠ d := by
  rcases h with h | h
  · rw [(List.Nodup.of_map _ hctx.children_nodup).mem_erase_iff] at h
    exact ⟨.inl h.2, h.1⟩
  · refine ⟨.inr (List.mem_of_mem_eraseP h), ?_⟩
    rintro rfl
    -- `eraseP` took the only reference with this id
    have hsplit := List.exists_of_eraseP (List.mem_of_mem_eraseP h)
      (p := fun r => decide (r.id = c.id)) (by simp)
    obtain ⟨a, before, after, -, ha, horder, herase⟩ := hsplit
    have hnodup := hctx.order_nodup
    rw [horder, List.map_append, List.map_cons, List.nodup_middle, List.nodup_cons,
      ← List.map_append, ← herase] at hnodup
    refine hnodup.1 (List.mem_map.2 ⟨c, h, ?_⟩)
    show c.id = a.id
    simpa [eq_comm] using ha

theorem onLists_unlistChild (hsound : Sound t) {p q : ActorId} {d c : ActorRef N}
    (h : OnLists (t.unlistChild p d) q c) : OnLists t q c ∧ (q = p → c ≠ d) := by
  unfold OnLists at h
  by_cases hq : q = p
  · subst hq
    simp only [Tables.unlistChild, Function.update_self] at h
    obtain ⟨hold, hne⟩ := mem_unlisted (hsound.contexts q) h
    exact ⟨hold, fun _ => hne⟩
  · simp only [Tables.unlistChild, Function.update_of_ne hq] at h
    exact ⟨h, fun heq => absurd heq hq⟩

theorem onLists_detach (hsound : Sound t) {r : ActorRef N} {q : ActorId} {c : ActorRef N}
    (h : OnLists (t.detach r) q c) :
    OnLists t q c ∧ ∀ p, t.parentOf r.id = some p → p.id ∈ t.actors → q = p.id → c ≠ r := by
  unfold Tables.detach at h
  dsimp only at h
  split at h
  · next hnone =>
      refine ⟨h, fun p hp => ?_⟩
      rw [hnone] at hp
      cases hp
  · next p hp =>
      split_ifs at h with hlive
      · obtain ⟨hold, hne⟩ := onLists_unlistChild (t := { t with
          detached := insert r.id t.detached }) { hsound with
            contexts := fun p => (hsound.contexts p).extend (extends_left t r.id)
            entries := fun e he => (hsound.entries e he).extend (extends_left t r.id)
            listed := fun x hx hdetached =>
              hsound.listed x hx fun hin => hdetached (Finset.mem_insert_of_mem hin) } h
        refine ⟨hold, fun p' hp' _ hq => ?_⟩
        rw [hp] at hp'
        cases hp'
        exact hne hq
      · refine ⟨h, fun p' hp' hlive' => ?_⟩
        rw [hp] at hp'
        cases hp'
        exact absurd hlive' hlive

/-- An actor comes off the lists of its parent through its own reference. -/
theorem listedHere_detach (hsound : Sound t) (h : ListedHere t) {r : ActorRef N}
    (hown : ∀ p, t.parentOf r.id = some p → p.id ∈ t.actors → r = t.self r.id) :
    ListedHere (t.detach r) := by
  intro q hq c hc hhere
  rw [detach_actors] at hq
  obtain ⟨hold, hne⟩ := onLists_detach hsound hc
  have hid : (t.detach r).id = t.id := (extends_detach t r).id
  rw [hid] at hhere
  obtain ⟨hlive, hdetached⟩ := h q hq c hold hhere
  rw [detach_actors, detach_detached]
  refine ⟨hlive, fun hin => ?_⟩
  rcases Finset.mem_insert.1 hin with heq | hin
  · obtain ⟨hself, m, p, hm, hp, rfl⟩ := (hold.childRef hsound).here hhere
    have hparent : t.parentOf r.id = some p := by
      rw [← heq, hsound.parentOf_of_live hlive hm, hp]
    refine hne p hparent hq rfl ?_
    rw [hown p hparent hq, ← heq]
    exact hself
  · exact hdetached hin

theorem listedElsewhere_detach (hsound : Sound t) (h : ListedElsewhere t) (r : ActorRef N) :
    ListedElsewhere (t.detach r) := by
  intro q hq c hc helse
  rw [detach_actors] at hq
  rw [detach_remoteChildren]
  exact h q hq c (onLists_detach hsound hc).1 ((extends_detach t r).id ▸ helse)

/-! ## Children on other nodes -/

omit [DecidableEq N] in
theorem listedElsewhere_forgetRemote (h : ListedElsewhere t) {x : ActorId}
    (hx : ∀ e ∈ t.remoteChildren, e.childRef.id = x → e.parentRef.id ∉ t.actors) :
    ListedElsewhere (t.forgetRemote x) := by
  intro q hq c hc helse
  obtain ⟨e, he, rfl, rfl⟩ := h q hq c hc helse
  exact ⟨e, List.mem_filter.2 ⟨he, by simpa using fun heq => hx e he heq hq⟩, rfl, rfl⟩

theorem onLists_dropRemoteChild (hsound : Sound t) {d p : ActorRef N} {q : ActorId}
    {c : ActorRef N} (h : OnLists (t.dropRemoteChild d p) q c) :
    OnLists t q c ∧ (q ∈ t.actors → q = p.id → c ≠ d) := by
  unfold Tables.dropRemoteChild at h
  split_ifs at h with hp
  · obtain ⟨hold, hne⟩ := onLists_unlistChild (sound_forgetRemote hsound d.id) h
    exact ⟨hold, fun _ => hne⟩
  · exact ⟨h, fun hq heq => absurd (heq ▸ hq) hp⟩

theorem listedHere_dropRemoteChild (hsound : Sound t) (h : ListedHere t) (d p : ActorRef N) :
    ListedHere (t.dropRemoteChild d p) := by
  intro q hq c hc hhere
  rw [actors_dropRemoteChild] at hq ⊢
  rw [detached_dropRemoteChild]
  exact h q hq c (onLists_dropRemoteChild hsound hc).1
    ((extends_dropRemoteChild t d p).id ▸ hhere)

theorem remoteChildren_dropRemoteChild (d p : ActorRef N) :
    (t.dropRemoteChild d p).remoteChildren = (t.forgetRemote d.id).remoteChildren := by
  unfold Tables.dropRemoteChild
  split_ifs <;> rfl

/-- A remote child leaves the lists of the parent of its entry. -/
theorem listedElsewhere_dropRemoteChild (hsound : Sound t) (h : ListedElsewhere t)
    {e : RemoteChildEntry N V} (he : KnownEntry t e) {p : ActorRef N}
    (hp : e.parentRef.id ∈ t.actors → p.id = e.parentRef.id) :
    ListedElsewhere (t.dropRemoteChild e.childRef p) := by
  intro q hq c hc helse
  rw [actors_dropRemoteChild] at hq
  obtain ⟨hold, hne⟩ := onLists_dropRemoteChild hsound hc
  obtain ⟨e', he', rfl, rfl⟩ := h q hq c hold ((extends_dropRemoteChild t _ p).id ▸ helse)
  rw [remoteChildren_dropRemoteChild]
  refine ⟨e', List.mem_filter.2 ⟨he', ?_⟩, rfl, rfl⟩
  have hid : e'.childRef.id ≠ e.childRef.id := by
    intro hid
    have heq := he.unique e' he' hid
    subst heq
    exact hne hq (hp hq).symm rfl
  simpa using hid

theorem listedHere_removeRemoteChild (hsound : Sound t) (h : ListedHere t) (x : ActorId)
    (p : ActorRef N) : ListedHere (t.removeRemoteChild x p) := by
  unfold Tables.removeRemoteChild
  split
  · exact h
  · exact listedHere_dropRemoteChild hsound h _ _

theorem listedElsewhere_removeRemoteChild (hsound : Sound t) (h : ListedElsewhere t)
    {x : ActorId} {p : ActorRef N}
    (hp : ∀ e, t.getRemoteChild x = some e → e.parentRef.id ∈ t.actors →
      p.id = e.parentRef.id) : ListedElsewhere (t.removeRemoteChild x p) := by
  unfold Tables.removeRemoteChild
  split
  · exact h
  · next e he =>
      exact listedElsewhere_dropRemoteChild hsound h
        (hsound.entries e (mem_of_getRemoteChild he).1) (hp e he)

omit [DecidableEq N] in
theorem listedHere_addRemoteChild (h : ListedHere t) {p : ActorRef N} {actorClass : String}
    {node : N} {options : SpawnOptions V} (hnode : node ≠ t.id) :
    ListedHere (t.addRemoteChild p actorClass node options) := by
  intro q hq c hc hhere
  rcases onLists_listChild hc with hc | ⟨-, rfl⟩
  · exact h q hq c hc hhere
  · exact absurd hhere hnode

omit [DecidableEq N] in
theorem listedElsewhere_addRemoteChild (h : ListedElsewhere t) (p : ActorRef N)
    (actorClass : String) (node : N) (options : SpawnOptions V) :
    ListedElsewhere (t.addRemoteChild p actorClass node options) := by
  intro q hq c hc helse
  rcases onLists_listChild hc with hc | ⟨rfl, rfl⟩
  · obtain ⟨e, he, hboth⟩ := h q hq c hc helse
    exact ⟨e, List.mem_append_left _ he, hboth⟩
  · exact ⟨_, List.mem_append_right _ List.mem_cons_self, rfl, rfl⟩

/-- The references after a restart of a remote child: the old one is gone, the new one
has the next id. -/
theorem onLists_replaceRemoteChild (hsound : Sound t) {e : RemoteChildEntry N V} {q : ActorId}
    {c : ActorRef N} (h : OnLists (t.replaceRemoteChild e) q c) :
    (OnLists t q c ∧ (q ∈ t.actors → q = e.parentRef.id → c ≠ e.childRef)) ∨
      q = e.parentRef.id ∧ c = ⟨e.childNodeId, t.nextId, e.options.name, 0⟩ := by
  unfold Tables.replaceRemoteChild at h
  dsimp only at h
  split_ifs at h with hp
  · by_cases hq : q = e.parentRef.id
    · unfold OnLists at h
      dsimp only at h
      rw [hq, Function.update_self] at h
      dsimp only at h
      rw [(replaceInOrder_perm _ _ _).mem_iff, List.mem_append, List.mem_append,
        List.mem_singleton] at h
      by_cases hnew : c = ⟨e.childNodeId, t.nextId, e.options.name, 0⟩
      · exact .inr ⟨hq, hnew⟩
      · obtain ⟨hold, hne⟩ := mem_unlisted (hsound.contexts e.parentRef.id)
          (h.imp (·.resolve_right hnew) (·.resolve_right hnew))
        exact .inl ⟨hq ▸ hold, fun _ _ => hne⟩
    · unfold OnLists at h
      dsimp only at h
      rw [Function.update_of_ne hq] at h
      exact .inl ⟨h, fun _ heq => absurd heq hq⟩
  · exact .inl ⟨h, fun hq heq => absurd (heq ▸ hq) hp⟩

theorem listedHere_replaceRemoteChild (hsound : Sound t) (h : ListedHere t)
    {e : RemoteChildEntry N V} (he : KnownEntry t e) : ListedHere (t.replaceRemoteChild e) := by
  intro q hq c hc hhere
  rw [actors_replaceRemoteChild] at hq ⊢
  rw [detached_replaceRemoteChild]
  rw [(extends_replaceRemoteChild t e).id] at hhere
  rcases onLists_replaceRemoteChild hsound hc with ⟨hold, -⟩ | ⟨-, rfl⟩
  · exact h q hq c hold hhere
  · exact absurd hhere he.elsewhere

theorem remoteChildren_replaceRemoteChild (e : RemoteChildEntry N V) :
    (t.replaceRemoteChild e).remoteChildren = (t.forgetRemote e.childRef.id).remoteChildren ++
      [{ e with childRef := ⟨e.childNodeId, t.nextId, e.options.name, 0⟩ }] := by
  unfold Tables.replaceRemoteChild
  dsimp only
  split_ifs <;> rfl

theorem listedElsewhere_replaceRemoteChild (hsound : Sound t) (h : ListedElsewhere t)
    {e : RemoteChildEntry N V} (he : KnownEntry t e) :
    ListedElsewhere (t.replaceRemoteChild e) := by
  intro q hq c hc helse
  rw [actors_replaceRemoteChild] at hq
  rw [(extends_replaceRemoteChild t e).id] at helse
  rw [remoteChildren_replaceRemoteChild]
  rcases onLists_replaceRemoteChild hsound hc with ⟨hold, hne⟩ | ⟨rfl, rfl⟩
  · obtain ⟨e', he', rfl, rfl⟩ := h q hq c hold helse
    refine ⟨e', List.mem_append_left _ (List.mem_filter.2 ⟨he', ?_⟩), rfl, rfl⟩
    have hid : e'.childRef.id ≠ e.childRef.id := by
      intro hid
      have heq := he.unique e' he' hid
      subst heq
      exact hne hq rfl rfl
    simpa using hid
  · exact ⟨_, List.mem_append_right _ List.mem_cons_self, rfl, rfl⟩

end

/-! ## Steps -/

/-- The actor that a suspended function takes off the lists of its parent, by the
reference it uses. -/
def unlists (t : Tables N V) : Frame N V → Option (ActorRef N)
  | .stop r => if r.id ∈ t.actors ∧ (t.context r.id).children = [] then some r else none
  | .children r [] => some r
  | .stopSingle r => if r.id ∈ t.actors then some r else none
  | _ => none

/-- The entry that a suspended function forgets because its request failed. -/
def forgets (response : Response) : Frame N V → Option (RemoteChildEntry N V)
  | .stopRequest e => if response = .error then some e else none
  | .restartRequest e => if response = .success then none else some e
  | _ => none

/-- Under a live parent an actor is stopped through its own reference, and does not
migrate. -/
structure OwnGuard (t : Tree N V) (a : TreeAction N V) : Prop where
  own : ∀ index response f outer r p, a = .resumes index response →
    t.calls[index]? = some (f :: outer) → unlists t.toTables f = some r →
    t.parentOf r.id = some p → p.id ∈ t.actors → r = t.self r.id
  migrate : ∀ index q outer p, a = .resumes index .success →
    t.calls[index]? = some (.migrating q :: outer) → t.parentOf q = some p → p.id ∉ t.actors

/-- While its parent is there an entry is not forgotten after a failed request, and is
removed only in the name of that parent. -/
structure EntryGuard (t : Tree N V) (a : TreeAction N V) : Prop where
  failed : ∀ index response f outer e, a = .resumes index response →
    t.calls[index]? = some (f :: outer) → forgets response f = some e →
    e ∈ t.remoteChildren → e.parentRef.id ∉ t.actors
  removed : ∀ x p e, a = .removeRemoteChild x p → t.getRemoteChild x = some e →
    e.parentRef.id ∈ t.actors → p.id = e.parentRef.id

section
variable [DecidableEq N] {t : Tables N V}

theorem listedHere_resumes (hsound : Sound t) (h : ListedHere t)
    (hlt : ∀ x ∈ t.detached, x < t.nextId) {response : Response} {f : Frame N V}
    (hframe : SoundFrame t f) {tables : Tables N V} {frames : List (Frame N V)}
    (hresumes : Resumes t response f tables frames)
    (hown : ∀ r p, unlists t f = some r → t.parentOf r.id = some p → p.id ∈ t.actors →
      r = t.self r.id)
    (hmigrate : ∀ q p, f = .migrating q → response = .success → t.parentOf q = some p →
      p.id ∉ t.actors) : ListedHere tables := by
  cases hresumes with
  | ends | descends | unregistered | stops | requests | requestsStop | forgot => exact h
  | @leaves _ r hf =>
      refine listedHere_detach hsound h fun p hp hlive => hown r p ?_ hp hlive
      rcases hf with ⟨rfl, hr, hchildren⟩ | rfl | ⟨rfl, hr⟩
      · exact if_pos ⟨hr, hchildren⟩
      · rfl
      · exact if_pos hr
  | @removed _ x hf =>
      refine listedHere_remove h fun q hq c hc hhere => ?_
      obtain ⟨hlive, hdetached⟩ := h q hq c hc hhere
      rintro rfl
      rcases hf with ⟨r, rfl, hr⟩ | ⟨rfl, hsuccess⟩
      · exact hdetached (hr ▸ hframe.2)
      · obtain ⟨-, m, p, hm, hp, rfl⟩ := (hc.childRef hsound).here hhere
        exact hmigrate _ p rfl hsuccess ((hsound.parentOf_of_live hlive hm).trans hp) hq
  | spawned hsuccess hm => exact listedHere_register h
  | childSpawned hp hsuccess hf => exact listedHere_spawnChild h hlt
  | dropped hresponse => exact listedHere_dropRemoteChild hsound h _ _
  | replaced hsuccess => exact listedHere_replaceRemoteChild hsound h hframe
  | added hsuccess => exact listedHere_addRemoteChild h hframe.2

theorem listedElsewhere_resumes (hsound : Sound t) (h : ListedElsewhere t)
    {response : Response} {f : Frame N V} (hframe : SoundFrame t f) {tables : Tables N V}
    {frames : List (Frame N V)} (hresumes : Resumes t response f tables frames)
    (hfailed : ∀ e, forgets response f = some e → e ∈ t.remoteChildren →
      e.parentRef.id ∉ t.actors) : ListedElsewhere tables := by
  cases hresumes with
  | ends | descends | unregistered | stops | requests | requestsStop => exact h
  | leaves hf => exact listedElsewhere_detach hsound h _
  | removed hf => exact listedElsewhere_remove h _
  | spawned hsuccess hm => exact listedElsewhere_register h
  | childSpawned hp hsuccess hf => exact listedElsewhere_spawnChild h
  | @forgot _ e hf =>
      have hforgets : forgets response f = some e ∧ KnownEntry t e := by
        rcases hf with ⟨rfl, hresponse⟩ | ⟨rfl, hresponse⟩
        · exact ⟨if_pos hresponse, hframe⟩
        · exact ⟨if_neg hresponse, hframe⟩
      refine listedElsewhere_forgetRemote h fun e' he' hid => ?_
      have heq := hforgets.2.unique e' he' hid
      subst heq
      exact hfailed _ hforgets.1 he'
  | dropped hresponse => exact listedElsewhere_dropRemoteChild hsound h hframe fun _ => rfl
  | replaced hsuccess => exact listedElsewhere_replaceRemoteChild hsound h hframe
  | added hsuccess => exact listedElsewhere_addRemoteChild h _ _ _ _

end

section
variable [DecidableEq N] {t : Tree N V}

theorem listedHere_steps (hsound : SoundTree t) (h : ListedHere t.toTables)
    (hlt : ∀ x ∈ t.detached, x < t.nextId) {a : TreeAction N V} (hguard : OwnGuard t a)
    {tables : Tables N V} {calls : List (List (Frame N V))} (hsteps : Steps t a tables calls) :
    ListedHere tables := by
  cases hsteps with
  | idle | invoked | rejected => exact h
  | spawned ha => exact listedHere_register h
  | childSpawned => exact listedHere_spawnChild h hlt
  | removedRemote ha => exact listedHere_removeRemoteChild hsound.tables h _ _
  | @resumed index response f outer hcall =>
      have hframe := hsound.frames _ (List.mem_of_getElem? hcall) f List.mem_cons_self
      refine listedHere_resumes hsound.tables h hlt hframe (resumeFrame_cases _ _ _)
        (fun r p => hguard.own index response f outer r p rfl hcall) ?_
      rintro q p rfl rfl
      exact hguard.migrate index q outer p rfl hcall

theorem listedElsewhere_steps (hsound : SoundTree t) (h : ListedElsewhere t.toTables)
    {a : TreeAction N V} (hguard : EntryGuard t a) {tables : Tables N V}
    {calls : List (List (Frame N V))} (hsteps : Steps t a tables calls) :
    ListedElsewhere tables := by
  cases hsteps with
  | idle | invoked | rejected => exact h
  | spawned ha => exact listedElsewhere_register h
  | childSpawned => exact listedElsewhere_spawnChild h
  | @removedRemote _ x p ha =>
      refine listedElsewhere_removeRemoteChild hsound.tables h fun e he hlive => ?_
      rcases ha with rfl | ⟨now, e', -, he', rfl⟩
      · exact hguard.removed x p e rfl he hlive
      · rw [he] at he'
        exact congrArg (·.parentRef.id) (Option.some.inj he').symm
  | @resumed index response f outer hcall =>
      have hframe := hsound.frames _ (List.mem_of_getElem? hcall) f List.mem_cons_self
      exact listedElsewhere_resumes hsound.tables h hframe (resumeFrame_cases _ _ _)
        fun e => hguard.failed index response f outer e rfl hcall

end

end Libeam.Proofs.ChildLists
