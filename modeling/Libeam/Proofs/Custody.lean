import Mathlib.Data.Set.Function
import Libeam.Migration.Migrations
import Libeam.Proofs.Census
/-!
# Who has an actor

While migrations go on, an actor is always at one place: it is an instance that
nobody works on, or a call of `migrate` that has not handed it over.  These
places are the tokens; that an actor has at most one of them is what the steps
of the protocol preserve as long as nothing goes wrong in between.
-/

namespace Libeam.Proofs.Custody

open Libeam.System Migration

variable {N V : Type}

/-! ## Where a session is -/

/-- Where a call of `migrate` is. -/
inductive Stage where
  | asking
  | executing
  | rollingBack
  | unregistering
  | returned (success : Bool)
  deriving DecidableEq

def stageAt : MigratePc N V → Stage
  | .preparing | .draining _ | .gettingState _ _ => .asking
  | .executing _ _ => .executing
  | .rollingBack _ _ => .rollingBack
  | .unregistering _ => .unregistering
  | .returned result => .returned result.success

def stage (m : Session N V) : Stage := stageAt m.call.pc

/-- Where the handler of its execute request is. -/
inductive Standing where
  | unasked
  | working
  | granted
  | refused
  | failed
  deriving DecidableEq

def standingAt : ExecutePc → Standing
  | .initializing | .settingState | .confirming (.ok false) => .working
  | .confirming (.ok true) => .granted
  | .confirming (.error _) => .failed
  | .releasing _ => .refused
  | .answered response => if response.success then .granted else .refused

def standing (m : Session N V) : Standing :=
  m.handler.elim .unasked fun t => standingAt t.pc

/-- Has the call not returned yet? -/
def Open (m : Session N V) : Prop := ∀ success, stage m ≠ .returned success

def source (m : Session N V) : N × ActorId := (m.call.node, m.call.id)

/-- The instance that the target makes for the session. -/
def copy (m : Session N V) : Option (N × ActorId) :=
  m.created.map fun id => (m.call.targetNodeId, id)

/-- How far the handler may be, by where the call is and whether its execute
request is in flight. -/
def ConsistentAt (idle : Prop) (st : Standing) : Stage → Prop
  | .asking => idle ∧ st = .unasked
  | .executing => st = .unasked ∨ idle ∧ st ≠ .failed
  | .rollingBack | .returned false => idle ∧ (st = .unasked ∨ st = .refused)
  | .unregistering | .returned true => idle ∧ st = .granted

def Consistent (m : Session N V) : Prop :=
  ConsistentAt (m.mail.execute = none) (standing m) (stage m)

/-- A handler is at work only while the call waits for it. -/
theorem ConsistentAt.waits {idle : Prop} {st : Stage}
    (h : ConsistentAt idle .working st) : st = .executing ∧ idle := by
  rcases st with _ | _ | _ | _ | (_ | _) <;> simp_all [ConsistentAt]

theorem ConsistentAt.not_failed {idle : Prop} {st : Stage} :
    ¬ ConsistentAt idle .failed st := by
  rcases st with _ | _ | _ | _ | (_ | _) <;> simp [ConsistentAt]

/-- A request that is in flight has not been answered. -/
theorem ConsistentAt.asks {idle : Prop} {st : Stage} {decision : Standing}
    (h : ConsistentAt idle decision st) (hidle : ¬ idle) :
    st = .executing ∧ decision = .unasked := by
  rcases st with _ | _ | _ | _ | (_ | _) <;> simp_all [ConsistentAt]

theorem ConsistentAt.mono {idle idle' : Prop} {st : Stage} {decision : Standing}
    (h : ConsistentAt idle decision st) (himp : idle → idle') :
    ConsistentAt idle' decision st := by
  rcases st with _ | _ | _ | _ | (_ | _)
  · exact ⟨himp h.1, h.2⟩
  · exact h.imp_right fun hidle => ⟨himp hidle.1, hidle.2⟩
  · exact ⟨himp h.1, h.2⟩
  · exact ⟨himp h.1, h.2⟩
  · exact ⟨himp h.1, h.2⟩
  · exact ⟨himp h.1, h.2⟩

/-- The answer of a handler that is at work changes nothing for the call yet. -/
theorem ConsistentAt.decides {idle : Prop} {st : Stage} (h : ConsistentAt idle .working st)
    {decision : Standing} (hdecision : decision ≠ .failed) : ConsistentAt idle decision st := by
  obtain ⟨rfl, hidle⟩ := h.waits
  exact .inr ⟨hidle, hdecision⟩

/-! ## Instances -/

def Present (s : Migrations N V) (x : N × ActorId) : Prop :=
  x.2 ∈ (s.host x.1).system.actors

def Paused (s : Migrations N V) (x : N × ActorId) : Prop :=
  x.2 ∈ (s.host x.1).system.pausedMailboxes

/-- The instance was made at some time. -/
def Known (s : Migrations N V) (x : N × ActorId) : Prop :=
  x.2 < (s.host x.1).system.nextId

/-- A call works on the instance. -/
def Engaged (s : Migrations N V) (x : N × ActorId) : Prop :=
  ∃ m ∈ s.sessions, Open m ∧ source m = x

/-- A handler has not yet decided about the instance it made. -/
def InCare (s : Migrations N V) (x : N × ActorId) : Prop :=
  ∃ m ∈ s.sessions, standing m = .working ∧ copy m = some x

/-! ## Tokens -/

inductive Token (N : Type) where
  | free (x : N × ActorId)
  | session (i : Nat)

/-- The call still has the actor. -/
def Owns (m : Session N V) : Prop := Open m ∧ standing m ≠ .granted

def Holds (s : Migrations N V) : Token N → Prop
  | .free x => Present s x ∧ ¬ Engaged s x ∧ ¬ InCare s x
  | .session i => ∃ m, s.sessions[i]? = some m ∧ Owns m

/-- The actor the token is about. -/
def owner (s : Migrations N V) : Token N → Option (N × ActorId)
  | .free x => some (s.actor x)
  | .session i => s.sessions[i]?.map fun m => s.actor (source m)

/-- What holds of a session as long as nothing goes wrong. -/
structure Sound (s : Migrations N V) (m : Session N V) : Prop where
  known : Known s (source m)
  parked : Open m → Present s (source m) → Paused s (source m)
  consistent : Consistent m
  answered : ∀ response, m.mail.executed = some response →
    ∃ t, m.handler = some t ∧ t.pc = .answered response
  /-- There is a copy unless the handler refused at once. -/
  made : copy m = none → standing m = .unasked ∨ standing m = .refused
  copy_known : ∀ x, copy m = some x → Known s x ∧ s.actor x = s.actor (source m) ∧
    standing m ≠ .unasked
  /-- It is the handler's own, and gone when the handler refused. -/
  copy_handler : ∀ id, m.created = some id → ∃ t, m.handler = some t ∧ t.instanceId = id
  copy_gone : ∀ x, copy m = some x → standing m = .refused → ¬ Present s x

structure Guarded (s : Migrations N V) : Prop where
  known : ∀ x, Present s x → Known s x
  actor : ∀ x, Known s x → Known s (s.actor x)
  sessions : ∀ m ∈ s.sessions, Sound s m
  apart : ∀ (i j : Nat) m m', s.sessions[i]? = some m → s.sessions[j]? = some m' →
    Open m → Open m' → source m = source m' → i = j
  alone : Set.InjOn (owner s) {k | Holds s k}

/-! ## Changes of the nodes -/

section

variable {s t : Migrations N V}

/-- A change of the nodes that adds no instance and resumes none that a call
works on. -/
structure Calmer (s t : Migrations N V) : Prop where
  sessions : t.sessions = s.sessions
  actor : t.actor = s.actor
  present : ∀ x, Present t x → Present s x
  known : ∀ x, Known t x ↔ Known s x
  paused : ∀ x, Engaged s x → Present t x → Paused s x → Paused t x

theorem engaged_congr (hsessions : t.sessions = s.sessions) (x : N × ActorId) :
    Engaged t x ↔ Engaged s x := by
  rw [Engaged, Engaged, hsessions]

theorem inCare_congr (hsessions : t.sessions = s.sessions) (x : N × ActorId) :
    InCare t x ↔ InCare s x := by
  rw [InCare, InCare, hsessions]

theorem Sound.calmer {m : Session N V} (h : Sound s m) (hc : Calmer s t)
    (hm : m ∈ s.sessions) : Sound t m where
  known := (hc.known _).2 h.known
  parked hopen hpresent :=
    hc.paused _ ⟨m, hm, hopen, rfl⟩ hpresent (h.parked hopen (hc.present _ hpresent))
  consistent := h.consistent
  answered := h.answered
  made := h.made
  copy_known x hx := by
    obtain ⟨hknown, hactor, hasked⟩ := h.copy_known x hx
    exact ⟨(hc.known x).2 hknown, by rw [hc.actor, hactor], hasked⟩
  copy_handler := h.copy_handler
  copy_gone x hx hrefused hpresent := h.copy_gone x hx hrefused (hc.present x hpresent)

theorem Calmer.owner_eq (hc : Calmer s t) (k : Token N) : owner t k = owner s k := by
  cases k with
  | free x => rw [owner, owner, hc.actor]
  | session i => rw [owner, owner, hc.actor, hc.sessions]

theorem Calmer.holds (hc : Calmer s t) {k : Token N} (hk : Holds t k) : Holds s k := by
  cases k with
  | free x =>
      obtain ⟨hpresent, hengaged, hcare⟩ := hk
      exact ⟨hc.present x hpresent, mt (engaged_congr hc.sessions x).2 hengaged,
        mt (inCare_congr hc.sessions x).2 hcare⟩
  | session i =>
      obtain ⟨m, hm, howns⟩ := hk
      exact ⟨m, hc.sessions ▸ hm, howns⟩

theorem Guarded.calmer (h : Guarded s) (hc : Calmer s t) : Guarded t where
  known x hx := (hc.known x).2 (h.known x (hc.present x hx))
  actor x hx := by
    rw [hc.known, hc.actor]
    exact h.actor x ((hc.known x).1 hx)
  sessions := by
    rw [hc.sessions]
    exact fun m hm => (h.sessions m hm).calmer hc hm
  apart := by
    rw [hc.sessions]
    exact h.apart
  alone := by
    have hsub : {k | Holds t k} ⊆ {k | Holds s k} := fun k hk => hc.holds hk
    exact (h.alone.mono hsub).congr fun k _ => (hc.owner_eq k).symm

end

/-! ## Changes of a session -/

section

variable {s : Migrations N V} {i : Nat} {m m' : Session N V}

theorem mem_sessions (hi : s.sessions[i]? = some m) (m' : Session N V) :
    m' ∈ (s.setSession i m').sessions := by
  obtain ⟨hlt, -⟩ := List.getElem?_eq_some_iff.1 hi
  exact List.mem_iff_getElem?.2 ⟨i, List.getElem?_set_self hlt⟩

theorem getElem?_setSession (hi : s.sessions[i]? = some m) (m' : Session N V) (j : Nat) :
    (s.setSession i m').sessions[j]? = if i = j then some m' else s.sessions[j]? := by
  obtain ⟨hlt, -⟩ := List.getElem?_eq_some_iff.1 hi
  unfold Migrations.setSession
  rw [List.getElem?_set]
  split_ifs
  · rfl
  · rfl

/-- A session other than `m` is still there. -/
theorem mem_setSession {m'' : Session N V} (hi : s.sessions[i]? = some m)
    (hmem : m'' ∈ s.sessions) (m' : Session N V) :
    m'' = m ∨ m'' ∈ (s.setSession i m').sessions := by
  obtain ⟨j, hj⟩ := List.mem_iff_getElem?.1 hmem
  by_cases hij : i = j
  · subst hij
    exact .inl (Option.some.inj (hj.symm.trans hi))
  · refine .inr (List.mem_iff_getElem?.2 ⟨j, ?_⟩)
    rw [getElem?_setSession hi, if_neg hij, hj]

/-- What nobody works on after the step that somebody worked on before it. -/
def Freed (m m' : Session N V) (x : N × ActorId) : Prop :=
  Open m ∧ ¬ Open m' ∧ source m = x ∨
    standing m = .working ∧ standing m' ≠ .working ∧ copy m = some x

/-- How a session may go on. -/
structure Goes (s : Migrations N V) (m m' : Session N V) : Prop where
  source_eq : source m' = source m
  copy_eq : standing m' = .working → copy m' = copy m
  opened : Open m' → Open m
  owns : Owns m' → Owns m
  once : Open m → ¬ Open m' → standing m' = standing m
  freed : ∀ x, Present s x → Freed m m' x → Owns m ∧ ¬ Owns m'

theorem Goes.engaged (hg : Goes s m m') (hi : s.sessions[i]? = some m) {x : N × ActorId}
    (hx : Engaged s x) (hnot : ¬ Engaged (s.setSession i m') x) : Freed m m' x := by
  obtain ⟨m'', hmem, hopen, hsource⟩ := hx
  rcases mem_setSession hi hmem m' with rfl | hmem'
  · refine .inl ⟨hopen, fun hopen' => hnot ?_, hsource⟩
    exact ⟨m', mem_sessions hi m', hopen', hg.source_eq.trans hsource⟩
  · exact absurd ⟨m'', hmem', hopen, hsource⟩ hnot

theorem Goes.inCare (hg : Goes s m m') (hi : s.sessions[i]? = some m) {x : N × ActorId}
    (hx : InCare s x) (hnot : ¬ InCare (s.setSession i m') x) : Freed m m' x := by
  obtain ⟨m'', hmem, hworking, hcopy⟩ := hx
  rcases mem_setSession hi hmem m' with rfl | hmem'
  · refine .inr ⟨hworking, fun hworking' => hnot ?_, hcopy⟩
    exact ⟨m', mem_sessions hi m', hworking', (hg.copy_eq hworking').trans hcopy⟩
  · exact absurd ⟨m'', hmem', hworking, hcopy⟩ hnot

/-- What one session can free is one instance. -/
theorem Goes.freed_unique (hg : Goes s m m') {x y : N × ActorId} (hx : Freed m m' x)
    (hy : Freed m m' y) : x = y := by
  rcases hx with ⟨hopen, hclosed, hx⟩ | ⟨hworking, hdone, hx⟩ <;>
    rcases hy with ⟨hopen', hclosed', hy⟩ | ⟨hworking', hdone', hy⟩
  · exact hx.symm.trans hy
  · exact absurd ((hg.once hopen hclosed).trans hworking') hdone'
  · exact absurd ((hg.once hopen' hclosed').trans hworking) hdone
  · exact Option.some.inj (hx.symm.trans hy)

open Classical in
/-- Where a token of the next state was before. -/
noncomputable def before (m m' : Session N V) (i : Nat) : Token N → Token N
  | .free x => if Freed m m' x then .session i else .free x
  | .session j => .session j

theorem Goes.mapsTo (hg : Goes s m m') (hi : s.sessions[i]? = some m) :
    Set.MapsTo (before m m' i) {k | Holds (s.setSession i m') k} {k | Holds s k} := by
  rintro (x | j) hk
  · obtain ⟨hpresent, hengaged, hcare⟩ := hk
    by_cases hx : Freed m m' x
    · rw [Set.mem_ofPred_eq, before, if_pos hx]
      exact ⟨m, hi, (hg.freed x hpresent hx).1⟩
    · rw [Set.mem_ofPred_eq, before, if_neg hx]
      exact ⟨hpresent, fun hs => hx (hg.engaged hi hs hengaged),
        fun hs => hx (hg.inCare hi hs hcare)⟩
  · obtain ⟨m'', hj, howns⟩ := hk
    rw [getElem?_setSession hi] at hj
    split_ifs at hj with hij
    · cases hj
      subst hij
      exact ⟨m, hi, hg.owns howns⟩
    · exact ⟨m'', hj, howns⟩

/-- The session that frees an instance has the actor no more. -/
theorem Goes.not_holds (hg : Goes s m m') (hi : s.sessions[i]? = some m) {x : N × ActorId}
    (hpresent : Present s x) (hx : Freed m m' x) :
    ¬ Holds (s.setSession i m') (.session i) := by
  rintro ⟨m'', hj, howns⟩
  rw [getElem?_setSession hi, if_pos rfl] at hj
  cases hj
  exact (hg.freed x hpresent hx).2 howns

theorem Goes.injOn (hg : Goes s m m') (hi : s.sessions[i]? = some m) :
    Set.InjOn (before m m' i) {k | Holds (s.setSession i m') k} := by
  rintro (x | j) hx (y | j') hy heq
  · by_cases hfx : Freed m m' x <;> by_cases hfy : Freed m m' y
    · rw [hg.freed_unique hfx hfy]
    · simp [before, hfx, hfy] at heq
    · simp [before, hfx, hfy] at heq
    · simpa [before, hfx, hfy] using heq
  · by_cases hfx : Freed m m' x
    · have hj : i = j' := by simpa [before, hfx] using heq
      exact absurd (hj ▸ hy) (hg.not_holds hi hx.1 hfx)
    · simp [before, hfx] at heq
  · by_cases hfy : Freed m m' y
    · have hj : j = i := by simpa [before, hfy] using heq
      exact absurd (hj ▸ hx) (hg.not_holds hi hy.1 hfy)
    · simp [before, hfy] at heq
  · exact heq

theorem Goes.owner_before (hg : Goes s m m') (hi : s.sessions[i]? = some m)
    (hsound : Sound s m) (k : Token N) :
    owner s (before m m' i k) = owner (s.setSession i m') k := by
  rcases k with x | j
  · by_cases hx : Freed m m' x
    · have hactor : s.actor (source m) = s.actor x := by
        rcases hx with ⟨-, -, rfl⟩ | ⟨-, -, hcopy⟩
        · rfl
        · exact (hsound.copy_known x hcopy).2.1.symm
      calc
        owner s (before m m' i (.free x)) = owner s (.session i) := by rw [before, if_pos hx]
        _ = some (s.actor (source m)) := by rw [owner, hi, Option.map_some]
        _ = some (s.actor x) := by rw [hactor]
    · rw [before, if_neg hx]
      rfl
  · rw [before, owner, owner, getElem?_setSession hi]
    split_ifs with hij
    · subst hij
      rw [hi, Option.map_some, Option.map_some, hg.source_eq]
      rfl
    · rfl

theorem Guarded.alone_setSession (h : Guarded s) (hi : s.sessions[i]? = some m)
    (hg : Goes s m m') :
    Set.InjOn (owner (s.setSession i m')) {k | Holds (s.setSession i m') k} :=
  (h.alone.comp (hg.injOn hi) (hg.mapsTo hi)).congr fun k _ =>
    hg.owner_before hi (h.sessions m (List.mem_of_getElem? hi)) k

theorem Guarded.setSession (h : Guarded s) (hi : s.sessions[i]? = some m)
    (hg : Goes s m m') (hsound : Sound s m') : Guarded (s.setSession i m') where
  known := h.known
  actor := h.actor
  sessions m'' hm'' := by
    obtain ⟨j, hj⟩ := List.mem_iff_getElem?.1 hm''
    rw [getElem?_setSession hi] at hj
    split_ifs at hj with hij
    · cases hj
      exact { hsound with }
    · exact { h.sessions m'' (List.mem_of_getElem? hj) with }
  apart := by
    have hkeep : ∀ (j : Nat) m'', (s.setSession i m').sessions[j]? = some m'' → Open m'' →
        ∃ m₀, s.sessions[j]? = some m₀ ∧ Open m₀ ∧ source m'' = source m₀ := by
      intro j m'' hj hopen
      rw [getElem?_setSession hi] at hj
      split_ifs at hj with hij
      · cases hj
        exact ⟨m, hij ▸ hi, hg.opened hopen, hg.source_eq⟩
      · exact ⟨m'', hj, hopen, rfl⟩
    intro j j' m₁ m₂ hj hj' hopen hopen' heq
    obtain ⟨m₁', hs, hopens, heqs⟩ := hkeep j m₁ hj hopen
    obtain ⟨m₂', hs', hopens', heqs'⟩ := hkeep j' m₂ hj' hopen'
    exact h.apart j j' m₁' m₂' hs hs' hopens hopens' (heqs ▸ heqs' ▸ heq)
  alone := h.alone_setSession hi hg

/-- What a new session adds. -/
def addSession (s : Migrations N V) (m : Session N V) : Migrations N V :=
  { s with sessions := s.sessions ++ [m] }

theorem mem_addSession {m'' : Session N V} :
    m'' ∈ (addSession s m').sessions ↔ m'' ∈ s.sessions ∨ m'' = m' := by
  rw [addSession, List.mem_append, List.mem_singleton]

theorem getElem?_addSession {j : Nat} {m'' : Session N V}
    (hj : (addSession s m').sessions[j]? = some m'') :
    s.sessions[j]? = some m'' ∨ j = s.sessions.length ∧ m'' = m' := by
  rw [addSession, List.getElem?_append] at hj
  split_ifs at hj with hlt
  · exact .inl hj
  · refine .inr ?_
    rw [List.getElem?_singleton] at hj
    split_ifs at hj with hzero
    exact ⟨by omega, (Option.some.inj hj).symm⟩

/-- Where a token was before the session was added. -/
def taken (s : Migrations N V) (m' : Session N V) : Token N → Token N
  | .free x => .free x
  | .session j => if j = s.sessions.length then .free (source m') else .session j

theorem taken_mapsTo (hfree : Holds s (.free (source m'))) :
    Set.MapsTo (taken s m') {k | Holds (addSession s m') k} {k | Holds s k} := by
  rintro (x | j) hk
  · obtain ⟨hpresent, hengaged, hcare⟩ := hk
    refine ⟨hpresent, fun hs => hengaged ?_, fun hs => hcare ?_⟩
    · obtain ⟨m'', hmem, hx⟩ := hs
      exact ⟨m'', mem_addSession.2 (.inl hmem), hx⟩
    · obtain ⟨m'', hmem, hx⟩ := hs
      exact ⟨m'', mem_addSession.2 (.inl hmem), hx⟩
  · obtain ⟨m'', hj, howns⟩ := hk
    rw [Set.mem_ofPred_eq, taken]
    split_ifs with hlen
    · exact hfree
    · rcases getElem?_addSession hj with hj | ⟨hlen', -⟩
      · exact ⟨m'', hj, howns⟩
      · exact absurd hlen' hlen

theorem taken_injOn (hopen : Open m') :
    Set.InjOn (taken s m') {k | Holds (addSession s m') k} := by
  have hnot : ∀ x, Holds (addSession s m') (.free x) → x ≠ source m' := by
    rintro x ⟨-, hengaged, -⟩ rfl
    exact hengaged ⟨m', mem_addSession.2 (.inr rfl), hopen, rfl⟩
  rintro (x | j) hx (y | j') hy heq
  · exact heq
  · rw [taken, taken] at heq
    split_ifs at heq
    exact absurd (Token.free.inj heq) (hnot x hx)
  · rw [taken, taken] at heq
    split_ifs at heq
    exact absurd (Token.free.inj heq).symm (hnot y hy)
  · rw [taken, taken] at heq
    split_ifs at heq with hlen hlen' hlen'
    · rw [hlen, hlen']
    · exact heq

theorem owner_taken {k : Token N} (hk : Holds (addSession s m') k) :
    owner s (taken s m' k) = owner (addSession s m') k := by
  rcases k with x | j
  · rfl
  · obtain ⟨m'', hj, -⟩ := hk
    rw [taken]
    split_ifs with hlen
    · rcases getElem?_addSession hj with hj' | ⟨-, rfl⟩
      · exact absurd (List.getElem?_eq_none hlen.ge) (hj' ▸ Option.some_ne_none m'')
      · rw [owner, owner, hj]
        rfl
    · rcases getElem?_addSession hj with hj' | ⟨hlen', -⟩
      · rw [owner, owner, hj, hj']
        rfl
      · exact absurd hlen' hlen

/-- A call takes the actor from an instance that is there and free. -/
theorem Guarded.append (h : Guarded s) (hopen : Open m') (hsound : Sound s m')
    (hfree : Holds s (.free (source m'))) : Guarded (addSession s m') where
  known := h.known
  actor := h.actor
  sessions m'' hm'' := by
    rcases mem_addSession.1 hm'' with hmem | rfl
    · exact { h.sessions m'' hmem with }
    · exact { hsound with }
  apart := by
    have hnew : ∀ (j : Nat) m'', s.sessions[j]? = some m'' → Open m'' →
        source m'' ≠ source m' := fun j m'' hj hopen'' heq =>
      hfree.2.1 ⟨m'', List.mem_of_getElem? hj, hopen'', heq⟩
    intro j j' m₁ m₂ hj hj' hopen₁ hopen₂ heq
    rcases getElem?_addSession hj with hj | ⟨hlen, hm₁⟩ <;>
      rcases getElem?_addSession hj' with hj' | ⟨hlen', hm₂⟩
    · exact h.apart j j' m₁ m₂ hj hj' hopen₁ hopen₂ heq
    · exact absurd (heq.trans (congrArg source hm₂)) (hnew j m₁ hj hopen₁)
    · exact absurd (heq.symm.trans (congrArg source hm₁)) (hnew j' m₂ hj' hopen₂)
    · exact hlen.trans hlen'.symm
  alone :=
    (h.alone.comp (taken_injOn hopen) (taken_mapsTo hfree)).congr fun _ hk => owner_taken hk

end

/-! ## New instances -/

section

variable {s t : Migrations N V} {x a : N × ActorId}

/-- A new instance, of the given actor, is all that the nodes get. -/
structure Installs (s t : Migrations N V) (x a : N × ActorId) : Prop where
  fresh : ¬ Known s x
  actor_new : t.actor x = a
  actor_old : ∀ y, y ≠ x → t.actor y = s.actor y
  present : ∀ y, Present t y ↔ y = x ∨ Present s y
  known : ∀ y, Known t y ↔ y = x ∨ Known s y
  paused : ∀ y, Paused s y → Paused t y
  actor_known : Known t a

theorem Installs.actor_of_known (hin : Installs s t x a) {y : N × ActorId}
    (hy : Known s y) : t.actor y = s.actor y :=
  hin.actor_old y fun heq => hin.fresh (heq ▸ hy)

theorem Installs.present_of_known (hin : Installs s t x a) {y : N × ActorId}
    (hy : Known s y) : Present t y ↔ Present s y := by
  have hne : y ≠ x := fun heq => hin.fresh (heq ▸ hy)
  rw [hin.present, or_iff_right hne]

theorem Sound.install {m : Session N V} (h : Sound s m) (hin : Installs s t x a) :
    Sound t m where
  known := (hin.known _).2 (.inr h.known)
  parked hopen hpresent :=
    hin.paused _ (h.parked hopen ((hin.present_of_known h.known).1 hpresent))
  consistent := h.consistent
  answered := h.answered
  made := h.made
  copy_known y hy := by
    obtain ⟨hknown, hactor, hasked⟩ := h.copy_known y hy
    refine ⟨(hin.known y).2 (.inr hknown), ?_, hasked⟩
    rw [hin.actor_of_known hknown, hin.actor_of_known h.known, hactor]
  copy_handler := h.copy_handler
  copy_gone y hy hrefused :=
    mt (hin.present_of_known (h.copy_known y hy).1).1 (h.copy_gone y hy hrefused)

theorem Installs.known_actor (hin : Installs s t x a) (h : Guarded s) {y : N × ActorId}
    (hy : Known t y) : Known t (t.actor y) := by
  rcases (hin.known y).1 hy with rfl | hknown
  · rw [hin.actor_new]
    exact hin.actor_known
  · rw [hin.actor_of_known hknown]
    exact (hin.known _).2 (.inr (h.actor y hknown))

theorem Installs.known_of_present (hin : Installs s t x a) (h : Guarded s)
    {y : N × ActorId} (hy : Present t y) : Known t y :=
  (hin.known y).2 (((hin.present y).1 hy).imp_right (h.known y))

theorem Installs.owner_eq (hin : Installs s t x a) (h : Guarded s)
    (hsessions : t.sessions = s.sessions) {k : Token N} (hk : Holds s k) :
    owner t k = owner s k := by
  rcases k with y | j
  · rw [owner, owner, hin.actor_of_known (h.known y hk.1)]
  · obtain ⟨m, hj, -⟩ := hk
    have hknown := (h.sessions m (List.mem_of_getElem? hj)).known
    rw [owner, owner, hsessions, hj, Option.map_some, Option.map_some,
      hin.actor_of_known hknown]

/-- An actor that nobody has gets an instance. -/
theorem Guarded.install (h : Guarded s) (hin : Installs s t x a)
    (hsessions : t.sessions = s.sessions) (hnone : ∀ k, Holds s k → owner s k ≠ some a) :
    Guarded t where
  known y hy := hin.known_of_present h hy
  actor y hy := hin.known_actor h hy
  sessions := by
    rw [hsessions]
    exact fun m hm => (h.sessions m hm).install hin
  apart := by
    rw [hsessions]
    exact h.apart
  alone := by
    have hold : ∀ k, Holds t k → k ≠ .free x → Holds s k := by
      rintro (y | j) hk hne
      · obtain ⟨hpresent, hengaged, hcare⟩ := hk
        have hy : y ≠ x := fun heq => hne (congrArg Token.free heq)
        exact ⟨((hin.present y).1 hpresent).resolve_left hy,
          mt (engaged_congr hsessions y).2 hengaged, mt (inCare_congr hsessions y).2 hcare⟩
      · obtain ⟨m, hj, howns⟩ := hk
        exact ⟨m, hsessions ▸ hj, howns⟩
    have hnew : ∀ k, Holds t k → k ≠ .free x → owner t k ≠ some a := by
      intro k hk hne
      rw [hin.owner_eq h hsessions (hold k hk hne)]
      exact hnone k (hold k hk hne)
    have hx : owner t (.free x) = some a := by rw [owner, hin.actor_new]
    intro k hk k' hk' heq
    by_cases hkx : k = .free x <;> by_cases hkx' : k' = .free x
    · rw [hkx, hkx']
    · rw [hkx, hx] at heq
      exact absurd heq.symm (hnew k' hk' hkx')
    · rw [hkx', hx] at heq
      exact absurd heq (hnew k hk hkx)
    · have hs := hold k hk hkx
      have hs' := hold k' hk' hkx'
      rw [hin.owner_eq h hsessions hs, hin.owner_eq h hsessions hs'] at heq
      exact h.alone hs hs' heq

/-- The handler of a session makes its copy; the call still has the actor. -/
structure Copies (s t : Migrations N V) (i : Nat) (m m' : Session N V)
    (x : N × ActorId) : Prop where
  installs : Installs s t x (s.actor (source m))
  at_index : s.sessions[i]? = some m
  sessions : t.sessions = s.sessions.set i m'
  source_eq : source m' = source m
  stage_eq : stage m' = stage m
  unasked : standing m = .unasked
  working : standing m' = .working
  copy_eq : copy m' = some x

theorem Copies.getElem? {i : Nat} {m m' : Session N V} (hc : Copies s t i m m' x)
    (j : Nat) : t.sessions[j]? = if i = j then some m' else s.sessions[j]? := by
  rw [hc.sessions]
  exact getElem?_setSession hc.at_index m' j

theorem Copies.opened {i : Nat} {m m' : Session N V} (hc : Copies s t i m m' x) :
    Open m' ↔ Open m := by
  rw [Open, Open, hc.stage_eq]

/-- Every session was there, with the same call. -/
theorem Copies.old {i j : Nat} {m m' m'' : Session N V} (hc : Copies s t i m m' x)
    (hj : t.sessions[j]? = some m'') :
    ∃ m₀, s.sessions[j]? = some m₀ ∧ source m'' = source m₀ ∧ (Open m'' → Open m₀) ∧
      (Owns m'' → Owns m₀) := by
  rw [hc.getElem?] at hj
  split_ifs at hj with hij
  · cases hj
    subst hij
    refine ⟨m, hc.at_index, hc.source_eq, hc.opened.1, fun howns => ⟨hc.opened.1 howns.1, ?_⟩⟩
    rw [hc.unasked]
    decide
  · exact ⟨m'', hj, rfl, id, id⟩

theorem Copies.holds {i : Nat} {m m' : Session N V} (hc : Copies s t i m m' x)
    {k : Token N} (hk : Holds t k) : Holds s k := by
  rcases k with y | j
  · obtain ⟨hpresent, hengaged, hcare⟩ := hk
    have hmem : ∀ m'' ∈ s.sessions, m'' = m ∨ m'' ∈ t.sessions := by
      intro m'' hm''
      rw [hc.sessions]
      exact mem_setSession hc.at_index hm'' m'
    have hm' : m' ∈ t.sessions := by
      rw [hc.sessions]
      exact mem_sessions hc.at_index m'
    have hy : y ≠ x := by
      rintro rfl
      exact hcare ⟨m', hm', hc.working, hc.copy_eq⟩
    refine ⟨((hc.installs.present y).1 hpresent).resolve_left hy, ?_, ?_⟩
    · rintro ⟨m'', hm'', hopen, hsource⟩
      rcases hmem m'' hm'' with rfl | hmem'
      · exact hengaged ⟨m', hm', hc.opened.2 hopen, hc.source_eq.trans hsource⟩
      · exact hengaged ⟨m'', hmem', hopen, hsource⟩
    · rintro ⟨m'', hm'', hworking, hcopy⟩
      rcases hmem m'' hm'' with rfl | hmem'
      · rw [hc.unasked] at hworking
        cases hworking
      · exact hcare ⟨m'', hmem', hworking, hcopy⟩
  · obtain ⟨m'', hj, howns⟩ := hk
    obtain ⟨m₀, hj₀, -, -, howns₀⟩ := hc.old hj
    exact ⟨m₀, hj₀, howns₀ howns⟩

theorem Copies.owner_eq {i : Nat} {m m' : Session N V} (hc : Copies s t i m m' x)
    (h : Guarded s) {k : Token N} (hk : Holds t k) : owner t k = owner s k := by
  have hs := hc.holds hk
  rcases k with y | j
  · rw [owner, owner, hc.installs.actor_of_known (h.known y hs.1)]
  · obtain ⟨m'', hj, -⟩ := hk
    obtain ⟨m₀, hj₀, hsource, -, -⟩ := hc.old hj
    have hknown := (h.sessions m₀ (List.mem_of_getElem? hj₀)).known
    rw [owner, owner, hj, hj₀, Option.map_some, Option.map_some, hsource,
      hc.installs.actor_of_known hknown]

theorem Guarded.copies {i : Nat} {m m' : Session N V} (h : Guarded s)
    (hc : Copies s t i m m' x) (hsound : Sound t m') : Guarded t where
  known y hy := hc.installs.known_of_present h hy
  actor y hy := hc.installs.known_actor h hy
  sessions m'' hm'' := by
    obtain ⟨j, hj⟩ := List.mem_iff_getElem?.1 hm''
    rw [hc.getElem?] at hj
    split_ifs at hj with hij
    · cases hj
      exact hsound
    · exact (h.sessions m'' (List.mem_of_getElem? hj)).install hc.installs
  apart j j' m₁ m₂ hj hj' hopen₁ hopen₂ heq := by
    obtain ⟨m₁', hs₁, hsource₁, hopens₁, -⟩ := hc.old hj
    obtain ⟨m₂', hs₂, hsource₂, hopens₂, -⟩ := hc.old hj'
    exact h.apart j j' m₁' m₂' hs₁ hs₂ (hopens₁ hopen₁) (hopens₂ hopen₂)
      (hsource₁ ▸ hsource₂ ▸ heq)
  alone := by
    intro k hk k' hk' heq
    rw [hc.owner_eq h hk, hc.owner_eq h hk'] at heq
    exact h.alone (hc.holds hk) (hc.holds hk') heq

end

end Libeam.Proofs.Custody
