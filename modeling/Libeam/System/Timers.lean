import Libeam.Lib.OrderedMap
import Libeam.Lib.Transition
import Libeam.System.State
/-!
# Timers and idle timeouts

The timers of the actors stand on those of the runtime, which calls one callback at a time.
What an actor does inside the call that a callback makes comes between `fire` and `resume`.
The actors are there from the start: one that is not yet spawned has set nothing.
-/

namespace Libeam.System

open Lib Lib.Transition

structure TimerRef where
  id : Nat
  actorId : ActorId
  isInterval : Bool
deriving DecidableEq

structure TimerEntry (V : Type) where
  ref : TimerRef
  handle : Nat
  message : V

/-- The part of an actor's context that is about time. -/
structure TimerContext (V : Type) where
  timers : OrderedMap Nat (TimerEntry V) := .empty
  idleTimeout : Nat := 0
  lastActivityTime : Nat := 0
  idleTimeoutHandle : Option Nat := none

/-- The callbacks: of a timer, of the check for idleness, and of the timer that schedules this
check again. -/
inductive Callback (V : Type) where
  | timer (ref : TimerRef) (message : V)
  | idle (actorId : ActorId)
  | remaining (actorId : ActorId)

def Callback.actorId {V : Type} : Callback V → ActorId
  | .timer ref _ => ref.actorId
  | .idle id | .remaining id => id

structure Timeout (V : Type) where
  callback : Callback V
  due : Nat
  interval : Option Nat

/-- What a callback does after the call it makes. -/
inductive AfterCall where
  | deleteTimer (ref : TimerRef)
  | rescheduleIdle (actorId : ActorId) (now : Nat)

structure Timers (V : Type) where
  actors : Finset ActorId
  now : Nat := 0
  context : ActorId → TimerContext V := fun _ => {}
  pending : Nat → Option (Timeout V) := fun _ => none
  nextHandle : Nat := 0
  nextTimer : Nat := 0
  calling : Option AfterCall := none
  casts : List (TimerRef × V) := []
  timeouts : List (ActorId × Nat) := []

namespace Timers

variable {V : Type}

section
variable (s : Timers V)

/-- The greatest delay of the runtime. -/
def TIMEOUT_MAX : Nat := 2 ^ 31 - 1

def delay (ms : Nat) : Nat := if 1 ≤ ms ∧ ms ≤ TIMEOUT_MAX then ms else 1

/-- `setTimeout` and `setInterval`; the handle is `nextHandle`. -/
def setTimeout (callback : Callback V) (ms : Nat) (isInterval : Bool) : Timers V :=
  { s with
    nextHandle := s.nextHandle + 1
    pending := Function.update s.pending s.nextHandle
      (some ⟨callback, s.now + delay ms, if isInterval then some (delay ms) else none⟩) }

def clearTimeout (handle : Nat) : Timers V :=
  { s with pending := Function.update s.pending handle none }

def setContext (id : ActorId) (c : TimerContext V) : Timers V :=
  { s with context := Function.update s.context id c }

/-- `none` is the error for an actor that is not there. -/
def startActorTimer (id : ActorId) (message : V) (delayMs : Nat) (isInterval : Bool) :
    Option (TimerRef × Timers V) :=
  if id ∈ s.actors then
    let ref := ⟨s.nextTimer, id, isInterval⟩
    let armed := s.setTimeout (.timer ref message) delayMs isInterval
    let c := s.context id
    some (ref, { armed.setContext id
      { c with timers := c.timers.set ref.id ⟨ref, s.nextHandle, message⟩ } with
        nextTimer := s.nextTimer + 1 })
  else none

def cancelActorTimer (id : ActorId) (timerRef : TimerRef) : Bool × Timers V :=
  let c := s.context id
  match if id ∈ s.actors then c.timers.get timerRef.id else none with
  | none => (false, s)
  | some entry => (true, (s.clearTimeout entry.handle).setContext id
      { c with timers := c.timers.delete timerRef.id })

def clearTimers (id : ActorId) : Timers V :=
  let c := s.context id
  (c.timers.values.foldl (fun s entry => s.clearTimeout entry.handle) s).setContext id
    { c with timers := .empty }

def cancelAllActorTimers (id : ActorId) : Timers V :=
  if id ∈ s.actors then s.clearTimers id else s

def scheduleIdleTimeout (id : ActorId) : Timers V :=
  let c := s.context id
  if c.idleTimeout = 0 then s
  else
    ((c.idleTimeoutHandle.elim s s.clearTimeout).setTimeout (.idle id) c.idleTimeout
      false).setContext id { c with idleTimeoutHandle := some s.nextHandle }

def clearIdleTimeout (id : ActorId) : Timers V :=
  let c := s.context id
  c.idleTimeoutHandle.elim s fun handle =>
    (s.clearTimeout handle).setContext id { c with idleTimeoutHandle := none }

def setActorIdleTimeout (id : ActorId) (timeoutMs : Nat) : Option (Timers V) :=
  if id ∈ s.actors then
    let cleared := s.clearIdleTimeout id
    let c := { cleared.context id with idleTimeout := timeoutMs }
    some (if 0 < timeoutMs then
      (cleared.setContext id { c with lastActivityTime := s.now }).scheduleIdleTimeout id
    else cleared.setContext id c)
  else none

def resetIdleTimeout (id : ActorId) : Timers V :=
  let c := s.context id
  if c.idleTimeout = 0 then s
  else (s.setContext id { c with lastActivityTime := s.now }).scheduleIdleTimeout id

/-- `actors.delete`, at the end of a stop. -/
def remove (id : ActorId) : Timers V := { s with actors := s.actors.erase id }

/-- The timers are cancelled here too, but not the idle timeout. -/
def cleanupActorForMigration (id : ActorId) : Timers V := (s.clearTimers id).remove id

/-- The callback of `startActorTimer`. -/
def timerCallback (ref : TimerRef) (message : V) : Timers V :=
  if ref.actorId ∈ s.actors then
    { s with
      casts := s.casts ++ [(ref, message)]
      calling := if ref.isInterval then none else some (.deleteTimer ref) }
  else if ref.isInterval then
    ((s.context ref.actorId).timers.get ref.id).elim s fun entry => s.clearTimeout entry.handle
  else s

/-- The callback of `_scheduleIdleTimeout`. -/
def idleCallback (id : ActorId) : Timers V :=
  let c := s.context id
  let idleMs := s.now - c.lastActivityTime
  if id ∉ s.actors then s
  else if c.idleTimeout ≤ idleMs then
    { s with
      timeouts := s.timeouts ++ [(id, idleMs)]
      calling := some (.rescheduleIdle id s.now) }
  else
    (s.setTimeout (.remaining id) (c.idleTimeout - idleMs) false).setContext id
      { c with idleTimeoutHandle := some s.nextHandle }

def callback : Callback V → Timers V
  | .timer ref message => s.timerCallback ref message
  | .idle id => s.idleCallback id
  | .remaining id => s.scheduleIdleTimeout id

/-- A timer fires that is due: it is spent, or armed again for its interval. -/
def fire (handle : Nat) : Option (Timers V) :=
  (s.pending handle).bind fun t =>
    let again := t.interval.map fun ms => { t with due := s.now + ms }
    if s.calling.isNone ∧ t.due ≤ s.now then
      some (callback { s with pending := Function.update s.pending handle again } t.callback)
    else none

def resume : AfterCall → Timers V
  | .deleteTimer ref =>
      let c := s.context ref.actorId
      { s.setContext ref.actorId { c with timers := c.timers.delete ref.id } with calling := none }
  | .rescheduleIdle id now =>
      scheduleIdleTimeout { s.setContext id { s.context id with lastActivityTime := now } with
        calling := none } id

inductive TimerAction (V : Type) where
  | startActorTimer (id : ActorId) (message : V) (delayMs : Nat) (isInterval : Bool)
  | cancelActorTimer (id : ActorId) (timerRef : TimerRef)
  | cancelAllActorTimers (id : ActorId)
  | setActorIdleTimeout (id : ActorId) (timeoutMs : Nat)
  | clearIdleTimeout (id : ActorId)
  | resetIdleTimeout (id : ActorId)
  | remove (id : ActorId)
  | cleanupActorForMigration (id : ActorId)
  | fire (handle : Nat)
  | resume
  | advance (ms : Nat)

/-- Time stands still inside a callback. -/
def step : TimerAction V → Option (Timers V)
  | .startActorTimer id message ms b => some ((s.startActorTimer id message ms b).elim s Prod.snd)
  | .cancelActorTimer id timerRef => some (s.cancelActorTimer id timerRef).2
  | .cancelAllActorTimers id => some (s.cancelAllActorTimers id)
  | .setActorIdleTimeout id ms => some ((s.setActorIdleTimeout id ms).getD s)
  | .clearIdleTimeout id => some (s.clearIdleTimeout id)
  | .resetIdleTimeout id => some (s.resetIdleTimeout id)
  | .remove id => some (s.remove id)
  | .cleanupActorForMigration id => some (s.cleanupActorForMigration id)
  | .fire handle => s.fire handle
  | .resume => s.calling.map s.resume
  | .advance ms => if s.calling.isNone then some { s with now := s.now + ms } else none

end

/-! ## What is pending -/

variable {s : Timers V} {id : ActorId} {past : TimerRef → Prop} {casts : List (TimerRef × V)}

/-- The handles of the contexts and the timers of the runtime belong to each other, up to what
the running callback has still to do, and the idle timer of `skip`.  The timers in `past` will
not fire any more. -/
structure Kept (past : TimerRef → Prop) (casts : List (TimerRef × V)) (skip : Option ActorId)
    (s : Timers V) : Prop where
  fresh : ∀ h t, s.pending h = some t → h < s.nextHandle
  timer : ∀ h t ref message, s.pending h = some t → t.callback = .timer ref message →
    t.interval.isSome = ref.isInterval ∧
    ((s.context ref.actorId).timers.get ref.id).map TimerEntry.handle = some h
  idle : ∀ h t id, s.pending h = some t → t.callback = .idle id ∨ t.callback = .remaining id →
    t.interval = none ∧ (s.context id).idleTimeoutHandle = some h
  entry : ∀ a id e, (s.context a).timers.get id = some e → id < s.nextTimer ∧
    e.handle < s.nextHandle ∧ e.ref.id = id ∧ e.ref.actorId = a ∧
    ∀ t, s.pending e.handle = some t → t.callback = .timer e.ref e.message
  handle : ∀ a h, (s.context a).idleTimeoutHandle = some h → h < s.nextHandle ∧
    0 < (s.context a).idleTimeout ∧
    ∀ t, s.pending h = some t → t.callback = .idle a ∨ t.callback = .remaining a
  liveTimer : ∀ a ∈ s.actors, ∀ id e, (s.context a).timers.get id = some e →
    (s.pending e.handle).isSome ∨ s.calling = some (.deleteTimer e.ref)
  liveIdle : ∀ a ∈ s.actors, ∀ h, (s.context a).idleTimeoutHandle = some h →
    (s.pending h).isSome ∨ skip = some a ∨ ∃ now, s.calling = some (.rescheduleIdle a now)
  silent : ∀ r, past r → r.id < s.nextTimer ∧ ∀ h t ref message, s.pending h = some t →
    t.callback = .timer ref message → ref.actorId = r.actorId → ref.id ≠ r.id
  spent : ∀ ref, s.calling = some (.deleteTimer ref) → past ref
  casts_eq : s.casts = casts

attribute [local grind =] Function.update_apply OrderedMap.get_empty OrderedMap.get_set
  OrderedMap.get_delete OrderedMap.mem_values Option.map_eq_some_iff Option.isSome_iff_exists

theorem pending_foldl (entries : List (TimerEntry V)) (s : Timers V) :
    entries.foldl (fun s entry => s.clearTimeout entry.handle) s = { s with
      pending := fun h => if h ∈ entries.map TimerEntry.handle then none else s.pending h } := by
  induction entries generalizing s with
  | nil => simp
  | cons e es ih =>
      rw [List.foldl_cons, ih]
      simp only [clearTimeout]
      congr
      funext h
      grind

namespace Kept

theorem startActorTimer (h : Kept past casts none s) {message : V} {ms : Nat} {b : Bool} {r}
    (hr : s.startActorTimer id message ms b = some r) : Kept past casts none r.2 := by
  cases h
  unfold Timers.startActorTimer at hr
  split_ifs at hr
  cases hr
  constructor <;> simp only [setContext, setTimeout] <;> grind

theorem cancelActorTimer (h : Kept past casts none s) (id : ActorId) (ref : TimerRef) :
    Kept past casts none (s.cancelActorTimer id ref).2 := by
  unfold Timers.cancelActorTimer
  dsimp only
  split
  · exact h
  · cases h
    constructor <;> simp only [setContext, clearTimeout] <;> grind

theorem clearTimers (h : Kept past casts none s) : Kept past casts none (s.clearTimers id) := by
  unfold Timers.clearTimers
  dsimp only
  rw [pending_foldl]
  cases h
  constructor <;> simp only [setContext] <;> grind

theorem clearIdleTimeout (h : Kept past casts none s) :
    Kept past casts none (s.clearIdleTimeout id) := by
  unfold Timers.clearIdleTimeout
  dsimp only
  cases hh : (s.context id).idleTimeoutHandle with
  | none => exact h
  | some _ => cases h; constructor <;> simp only [setContext, clearTimeout, Option.elim] <;> grind

/-- No timer is armed for the idleness of `id`. -/
theorem arm (h : Kept past casts (some id) s) {c : Callback V} {ms : Nat}
    (hc : c = .idle id ∨ c = .remaining id) (hi : 0 < (s.context id).idleTimeout)
    (hn : ∀ h, (s.context id).idleTimeoutHandle = some h → s.pending h = none) :
    Kept past casts none ((s.setTimeout c ms false).setContext id
      { s.context id with idleTimeoutHandle := some s.nextHandle }) := by
  cases h
  constructor <;> simp only [setContext, setTimeout] <;> grind

theorem scheduleIdleTimeout (h : Kept past casts (some id) s) :
    Kept past casts none (s.scheduleIdleTimeout id) := by
  unfold Timers.scheduleIdleTimeout
  dsimp only
  split_ifs with hi
  · cases h
    constructor <;> grind
  · cases hh : (s.context id).idleTimeoutHandle with
    | none => exact h.arm (.inl rfl) (by omega) (by simp [hh])
    | some k =>
        refine arm (s := s.clearTimeout k) ?_ (.inl rfl) (by simp [clearTimeout]; omega) ?_
        · cases h
          constructor <;> simp only [clearTimeout] <;> grind
        · simp [clearTimeout, hh]

theorem setContext {skip} (h : Kept past casts skip s) {c : TimerContext V}
    (ht : c.timers = (s.context id).timers)
    (hh : c.idleTimeoutHandle = (s.context id).idleTimeoutHandle)
    (hi : 0 < c.idleTimeout ∨ c.idleTimeoutHandle = none) :
    Kept past casts skip (s.setContext id c) := by
  cases h
  constructor <;> simp only [Timers.setContext] <;> grind

theorem skip (h : Kept past casts none s) : Kept past casts (some id) s := by
  cases h
  constructor <;> grind

theorem resume (h : Kept past casts none s) {after : AfterCall} (hc : s.calling = some after) :
    Kept past casts none (s.resume after) := by
  cases h
  cases after with
  | deleteTimer ref =>
      constructor <;> simp only [Timers.resume, Timers.setContext] <;> grind
  | rescheduleIdle id now =>
      refine scheduleIdleTimeout ?_
      constructor <;> simp only [Timers.setContext] <;> grind

/-- The last firing of a timer whose actor is gone. -/
theorem timerCallback_gone (h : Kept past casts none s) {handle : Nat} {t : Timeout V}
    {ref : TimerRef} {message : V} {again : Nat → Timeout V} (ht : s.pending handle = some t)
    (hc : t.callback = .timer ref message) (hg : ref.actorId ∉ s.actors) :
    timerCallback { s with pending := Function.update s.pending handle (t.interval.map again) }
      ref message = { s with pending := Function.update s.pending handle none } := by
  obtain ⟨hi, he⟩ := h.timer handle t ref message ht hc
  obtain ⟨e, hget, rfl⟩ := Option.map_eq_some_iff.1 he
  rw [timerCallback, if_neg hg, ← hi, hget]
  cases t.interval with
  | none => simp
  | some ms => simp [clearTimeout]

/-- An interval is armed again. -/
theorem again (h : Kept past casts none s) (hc : s.calling = none) {handle : Nat} {t : Timeout V}
    (hp : s.pending handle = some t) (due : Nat) : Kept past casts none { s with
      pending := Function.update s.pending handle (some { t with due := due })
      calling := none } := by
  cases h
  constructor <;> dsimp only <;> grind

/-- A step casts at most once, and not for a timer in `past`. -/
def Next (past : TimerRef → Prop) (casts : List (TimerRef × V)) (s : Timers V) : Prop :=
  Kept past casts none s ∨ ∃ ref message, ¬ past ref ∧
    Kept (fun r => past r ∨ r = ref ∧ r.isInterval = false) (casts ++ [(ref, message)]) none s

/-- Before the callback of an idle timer. -/
theorem fired (h : Kept past casts none s) {handle : Nat} {t : Timeout V}
    (hp : s.pending handle = some t) (hid : t.callback = .idle id ∨ t.callback = .remaining id) :
    Kept past casts (some id) { s with pending := Function.update s.pending handle none } ∧
      t.interval = none ∧ (s.context id).idleTimeoutHandle = some handle := by
  cases h
  refine ⟨?_, by grind⟩
  constructor <;> dsimp only <;> grind

theorem fire (h : Kept past casts none s) {handle : Nat} {t : Timers V}
    (ht : s.fire handle = some t) : Next past casts t := by
  obtain ⟨⟨c, due, interval⟩, hp, ht⟩ := Option.bind_eq_some_iff.1 ht
  simp only [Option.ite_none_right_eq_some, Option.some.injEq, Option.isNone_iff_eq_none] at ht
  obtain ⟨⟨hc, -⟩, rfl⟩ := ht
  cases c with
  | timer ref message =>
      by_cases hg : ref.actorId ∈ s.actors
      · have hpast : ¬ past ref := fun hr => (h.silent ref hr).2 handle _ _ _ hp rfl rfl rfl
        obtain ⟨hi, -⟩ := h.timer handle _ ref message hp rfl
        refine .inr ⟨ref, message, hpast, ?_⟩
        simp only [callback, timerCallback, if_pos hg, ← hi]
        cases interval with
        | none =>
            cases h
            constructor <;> dsimp only [Option.map, Option.isSome] <;> grind
        | some ms => exact { h.again hc hp (s.now + ms) with
            silent := fun r hr => (h.again hc hp _).silent r (hr.resolve_right (by grind))
            spent := by simp
            casts_eq := by rw [h.casts_eq] }
      · rw [callback, h.timerCallback_gone hp rfl hg]
        cases h
        refine .inl ?_
        constructor <;> dsimp only <;> grind
  | remaining id =>
      obtain ⟨hk, rfl, -⟩ := h.fired hp (.inr rfl)
      exact .inl hk.scheduleIdleTimeout
  | idle id =>
      obtain ⟨hk, rfl, hh⟩ := h.fired hp (.inl rfl)
      refine .inl ?_
      simp only [callback, idleCallback, Option.map_none]
      split_ifs with hg hi
      · exact { hk with
          liveTimer := by simpa [hc] using hk.liveTimer
          liveIdle := by simpa [hc] using hk.liveIdle
          spent := by simp }
      · exact hk.arm (.inr rfl) (by dsimp only; omega) (by grind)
      · refine { hk with liveIdle := fun a ha k hk' => ?_ }
        have hlive := hk.liveIdle a ha k hk'
        grind

theorem remove (h : Kept past casts none s) : Kept past casts none (s.remove id) := by
  cases h
  constructor <;> simp only [Timers.remove] <;> grind

theorem step (h : Kept past casts none s) {a : TimerAction V} {t : Timers V}
    (ht : s.step a = some t) : Next past casts t := by
  cases a <;> simp only [Timers.step, Option.some.injEq, Option.ite_none_right_eq_some,
    Option.map_eq_some_iff] at ht
  case fire => exact h.fire ht
  all_goals refine .inl ?_
  case startActorTimer id message ms b =>
    cases hr : s.startActorTimer id message ms b <;> rw [hr] at ht <;> subst ht
    exacts [h, h.startActorTimer hr]
  case cancelActorTimer => exact ht ▸ h.cancelActorTimer _ _
  case cancelAllActorTimers =>
    rw [← ht, Timers.cancelAllActorTimers]
    split_ifs
    exacts [h.clearTimers, h]
  case setActorIdleTimeout id ms =>
    simp only [Timers.setActorIdleTimeout] at ht
    split_ifs at ht with hm hms <;> subst ht
    · exact scheduleIdleTimeout (h.clearIdleTimeout.skip.setContext (by rfl) (by rfl) (.inl hms))
    · refine h.clearIdleTimeout.setContext rfl rfl (.inr ?_)
      rw [Timers.clearIdleTimeout]
      cases hh : (s.context id).idleTimeoutHandle <;> simp [Timers.setContext, hh]
    · exact h
  case clearIdleTimeout => exact ht ▸ h.clearIdleTimeout
  case resetIdleTimeout id =>
    rw [← ht, Timers.resetIdleTimeout]
    split
    · exact h
    · exact scheduleIdleTimeout (h.skip.setContext (by rfl) (by rfl) (.inl (by dsimp only; omega)))
  case remove => exact ht ▸ h.remove
  case cleanupActorForMigration => exact ht ▸ h.clearTimers.remove
  case resume =>
    obtain ⟨after, hc, rfl⟩ := ht
    exact h.resume hc
  case advance =>
    rw [← ht.2]
    cases h
    constructor <;> assumption

theorem init (actors : Finset ActorId) :
    Kept (fun _ => False) [] none ({ actors := actors } : Timers V) := by
  constructor <;> simp [OrderedMap.get_empty]

/-- What is cast afterwards is not for a timer in `past`, and nothing twice for one shot. -/
def Afterwards (past : TimerRef → Prop) (casts : List (TimerRef × V)) (s : Timers V) : Prop :=
  ∃ new : List (TimerRef × V),
    Kept (fun r => past r ∨ r.isInterval = false ∧ r ∈ new.map Prod.fst) (casts ++ new) none s ∧
    (∀ c ∈ new, ¬ past c.1) ∧ ((new.map Prod.fst).filter (!·.isInterval)).Nodup

theorem run {as : List (TimerAction V)} {t : Timers V} (h : Kept past casts none s)
    (hrun : Transition.run Timers.step s as = some t) : Afterwards past casts t := by
  refine run_invariant' (fun s a t hs ht => ?_) ⟨[], by simpa using h, by simp, by simp⟩ hrun
  obtain ⟨new, hk, hpast, hnodup⟩ := hs
  rcases hk.step ht with hk | ⟨ref, message, hnew, hk⟩
  · exact ⟨new, hk, hpast, hnodup⟩
  · obtain ⟨hold, hnew⟩ := not_or.1 hnew
    refine ⟨new ++ [(ref, message)], ?_, by grind, ?_⟩
    · rw [← List.append_assoc]
      convert hk using 1
      grind
    · cases hi : ref.isInterval <;> simp [hi, hnodup, List.nodup_append]
      grind

end Kept

section
variable (actors : Finset ActorId) (as : List (TimerAction V))

/-- Between two callbacks the entries of a live actor are its timers that are pending, and its
idle timer is the one that it knows. -/
theorem pending_iff_listed (hs : run step { actors := actors } as = some s)
    (hc : s.calling = none) (ha : id ∈ s.actors) (handle : Nat) :
    ((∃ t ref message, s.pending handle = some t ∧ t.callback = .timer ref message ∧
      ref.actorId = id) ↔ ∃ e ∈ (s.context id).timers.values, e.handle = handle) ∧
    ((∃ t, s.pending handle = some t ∧ (t.callback = .idle id ∨ t.callback = .remaining id)) ↔
      (s.context id).idleTimeoutHandle = some handle) := by
  obtain ⟨_, h, -⟩ := (Kept.init actors).run hs
  cases h
  grind

theorem cancelled_timer_casts_no_more (hs : run step { actors := actors } as = some s)
    (id : ActorId) (ref : TimerRef) (hc : (s.cancelActorTimer id ref).1 = true)
    (bs : List (TimerAction V)) {t : Timers V}
    (ht : run step (s.cancelActorTimer id ref).2 bs = some t) :
    ∃ new, t.casts = s.casts ++ new ∧ ∀ c ∈ new, ¬ (c.1.actorId = id ∧ c.1.id = ref.id) := by
  obtain ⟨_, h, -⟩ := (Kept.init actors).run hs
  have hk := h.cancelActorTimer id ref
  have hget : ((s.cancelActorTimer id ref).2.context id).timers.get ref.id = none ∧
      ref.id < (s.cancelActorTimer id ref).2.nextTimer := by
    have hentry := h.entry id ref.id
    revert hc
    unfold Timers.cancelActorTimer
    dsimp only
    split
    · simp
    · simp only [setContext, clearTimeout]
      grind
  have htimer := hk.timer
  have hold := hk.silent
  obtain ⟨new, ht, hnew, -⟩ := Kept.run { hk with
    silent := fun r (hr : _ ∨ r.actorId = id ∧ r.id = ref.id) => by grind
    spent := fun r hr => .inl (hk.spent r hr) } ht
  exact ⟨new, by rw [ht.casts_eq, h.casts_eq], fun c hc hr => hnew c hc (.inr hr)⟩

/-- What a stop clears is all that is pending for the actor. -/
theorem all_cleared (hs : run step { actors := actors } as = some s) (ha : id ∈ s.actors)
    (handle : Nat) {t : Timeout V}
    (ht : ((s.cancelAllActorTimers id).clearIdleTimeout id).pending handle = some t) :
    t.callback.actorId ≠ id := by
  obtain ⟨_, h, -⟩ := (Kept.init actors).run hs
  rw [cancelAllActorTimers, if_pos ha] at ht
  have hcontext : let c := ((s.clearTimers id).clearIdleTimeout id).context id
      c.timers = .empty ∧ c.idleTimeoutHandle = none := by
    simp only [clearTimers, clearIdleTimeout, pending_foldl, setContext, Function.update_self]
    cases (s.context id).idleTimeoutHandle <;> simp [clearTimeout]
  have hk : Kept _ _ none ((s.clearTimers id).clearIdleTimeout id) :=
    h.clearTimers.clearIdleTimeout
  have htimer := hk.timer handle t
  have hidle := hk.idle handle t
  cases hc : t.callback <;> grind [Callback.actorId]

theorem one_shot_casts_once (hs : run step { actors := actors } as = some s) :
    ((s.casts.map Prod.fst).filter (!·.isInterval)).Nodup := by
  obtain ⟨new, h, -, hnodup⟩ := (Kept.init actors).run hs
  rwa [h.casts_eq]

/-- A timer whose actor is gone fires once more, and is cleared then. -/
theorem fire_of_gone (hs : run step { actors := actors } as = some s) {handle : Nat}
    {t : Timeout V} {ref : TimerRef} {message : V} (ht : s.pending handle = some t)
    (hc : t.callback = .timer ref message) (hg : ref.actorId ∉ s.actors)
    (hdue : s.calling.isNone ∧ t.due ≤ s.now) :
    s.fire handle = some { s with pending := Function.update s.pending handle none } := by
  obtain ⟨_, h, -⟩ := (Kept.init actors).run hs
  rw [fire, ht, Option.bind_some, if_pos hdue, hc, callback, h.timerCallback_gone ht hc hg]

end

/-- An actor that sends itself a message every 10 ms. -/
def ticking : Timers Nat :=
  (startActorTimer { actors := {0} } 0 7 10 true).elim { actors := ∅ } Prod.snd

theorem pending_iff_listed_ticking :
    ((∃ t ref message, ticking.pending 0 = some t ∧ t.callback = .timer ref message ∧
      ref.actorId = 0) ↔ ∃ e ∈ (ticking.context 0).timers.values, e.handle = 0) ∧
    ((∃ t, ticking.pending 0 = some t ∧ (t.callback = .idle 0 ∨ t.callback = .remaining 0)) ↔
      (ticking.context 0).idleTimeoutHandle = some 0) :=
  pending_iff_listed {0} [.startActorTimer 0 7 10 true] rfl rfl (by decide : 0 ∈ ticking.actors) 0

theorem cancelled_timer_casts_no_more_ticking :
    ∃ new, ({ (ticking.cancelActorTimer 0 ⟨0, 0, true⟩).2 with now := 10 } : Timers Nat).casts =
      ticking.casts ++ new ∧ ∀ c ∈ new, ¬ (c.1.actorId = 0 ∧ c.1.id = 0) :=
  cancelled_timer_casts_no_more {0} [.startActorTimer 0 7 10 true] (s := ticking) rfl 0
    ⟨0, 0, true⟩ rfl [.advance 10] rfl

theorem all_cleared_other : (Callback.timer ⟨0, 1, true⟩ 7).actorId ≠ 0 :=
  all_cleared {0, 1} [.startActorTimer 1 7 10 true] rfl
    (by decide : 0 ∈ ({0, 1} : Finset ActorId)) 0 rfl

theorem one_shot_casts_once_fired :
    (([⟨0, 0, false⟩] : List TimerRef).filter (!·.isInterval)).Nodup := by
  have h := one_shot_casts_once {0} [.startActorTimer 0 7 10 false, .advance 10, .fire 0] rfl
  exact h

theorem fire_of_gone_ticking :
    ({ ticking with actors := ∅, now := 10 } : Timers Nat).fire 0 = some { ticking with
      actors := ∅, now := 10, pending := Function.update ticking.pending 0 none } :=
  fire_of_gone {0} [.startActorTimer 0 7 10 true, .remove 0, .advance 10] rfl rfl rfl
    (by decide) (by decide)

end Timers

end Libeam.System
