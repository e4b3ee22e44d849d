import Libeam.Registry.Broadcast
/-!
# Which sets of registrations lead to the same entry

Of two registrations of a name at most one replaces the other.  This is no order: a
registration that is later by its clock may have the lower wall clock, and then a third
one can lie between the two the wrong way round.  All orders of arrival lead to the same
entry just when one of the registrations replaces each of the others.
-/

namespace Libeam.Proofs.Convergence

open Registry Registry.RegistrySync Lib.Transition

variable {N : Type} [LinearOrder N] {x y m : ActorRegistration N}

/-! ## The rule -/

/-- Two clocks are compared the same way from both sides. -/
theorem compare_swap (c other : VectorClock N) :
    (c.compare other = .after ↔ other.compare c = .before) ∧
      (c.compare other = .concurrent ↔ other.compare c = .concurrent) := by
  refine ⟨VectorClock.before_iff_after.symm, ?_⟩
  rw [VectorClock.compare_eq_concurrent, VectorClock.compare_eq_concurrent, and_comm]

theorem replaces_iff : replaces x y = true ↔
    x.vectorClock.compare y.vectorClock = .after ∨
      x.vectorClock.compare y.vectorClock = .concurrent ∧
        (y.generation < x.generation ∨
          x.generation = y.generation ∧ y.nodeId < x.nodeId) := by
  unfold replaces
  cases x.vectorClock.compare y.vectorClock <;> simp

/-- What has been replaced does not come back at once. -/
theorem replaces_asymm (h : replaces x y = true) : replaces y x = false := by
  rw [Bool.eq_false_iff, ne_eq, replaces_iff]
  rw [replaces_iff] at h
  obtain ⟨hafter, hconcurrent⟩ := compare_swap x.vectorClock y.vectorClock
  rcases h with h | ⟨h, hless⟩
  · rw [hafter.1 h]
    simp
  · rw [hconcurrent.1 h]
    rintro (hcase | ⟨-, hmore | ⟨heq, hnode⟩⟩)
    · cases hcase
    · rcases hless with hless | ⟨heq, -⟩
      · exact absurd hless hmore.asymm
      · exact absurd heq hmore.ne
    · rcases hless with hless | ⟨-, hnode'⟩
      · exact absurd heq hless.ne
      · exact absurd hnode hnode'.asymm

theorem replaces_irrefl (x : ActorRegistration N) : replaces x x = false := by
  rw [Bool.eq_false_iff]
  intro h
  exact absurd (replaces_asymm h) (by simp [h])

/-! ## Processing registrations of one name -/

/-- Registrations arrive one after the other. -/
def process (r : RegistrySync N) (regs : List (ActorRegistration N)) : RegistrySync N :=
  regs.foldl (fun r reg => r.handleRegistryUpdate ⟨.register, reg⟩) r

/-- The entry after a registration has arrived. -/
def meets (existing : Option (ActorRegistration N)) (reg : ActorRegistration N) :
    Option (ActorRegistration N) :=
  match existing with
  | none => some reg
  | some existing => if replaces reg existing then some reg else some existing

theorem meets_some (existing reg : ActorRegistration N) :
    meets (some existing) reg = some (if replaces reg existing then reg else existing) := by
  unfold meets
  dsimp only
  split_ifs <;> rfl

variable {name : String} {regs : List (ActorRegistration N)}

theorem find_process (r : RegistrySync N) (hname : ∀ reg ∈ regs, reg.name = name) :
    (process r regs).find name = regs.foldl meets (r.find name) := by
  induction regs generalizing r with
  | nil => rfl
  | cons reg regs ih =>
      have hstep : (r.handleRegistryUpdate ⟨.register, reg⟩).find name =
          meets (r.find name) reg := by
        have hreg := hname reg (by simp)
        subst hreg
        exact find_handleRegister r reg
      calc (process r (reg :: regs)).find name
          = (process (r.handleRegistryUpdate ⟨.register, reg⟩) regs).find name := rfl
        _ = regs.foldl meets (meets (r.find name) reg) := by
            rw [ih _ fun reg' hreg' => hname reg' (by simp [hreg']), hstep]

/-- The entry is one of those that have arrived. -/
theorem foldl_meets_mem (regs : List (ActorRegistration N)) (existing : ActorRegistration N) :
    ∃ reg ∈ existing :: regs, regs.foldl meets (some existing) = some reg := by
  induction regs generalizing existing with
  | nil => exact ⟨existing, by simp, rfl⟩
  | cons next regs ih =>
      rw [List.foldl_cons, meets_some]
      obtain ⟨reg, hreg, heq⟩ := ih (if replaces next existing then next else existing)
      refine ⟨reg, ?_, heq⟩
      rcases List.mem_cons.1 hreg with rfl | hreg
      · split_ifs <;> simp
      · simp [hreg]

/-- A registration that replaces all others stays once it has arrived. -/
theorem foldl_meets_stays (hbest : ∀ x ∈ regs, x ≠ m → replaces m x = true) :
    regs.foldl meets (some m) = some m := by
  induction regs with
  | nil => rfl
  | cons x regs ih =>
      have hkept : replaces x m = false := by
        by_cases hx : x = m
        · rw [hx]
          exact replaces_irrefl m
        · exact replaces_asymm (hbest x (by simp) hx)
      rw [List.foldl_cons, show meets (some m) x = some m by simp [meets, hkept]]
      exact ih fun y hy => hbest y (by simp [hy])

/-- And it does arrive. -/
theorem foldl_meets_best {existing : Option (ActorRegistration N)}
    (hbest : ∀ x ∈ regs, x ≠ m → replaces m x = true) (hm : m ∈ regs)
    (hexisting : ∀ x, existing = some x → x ≠ m → replaces m x = true) :
    regs.foldl meets existing = some m := by
  induction regs generalizing existing with
  | nil => cases hm
  | cons x regs ih =>
      have htail : ∀ y ∈ regs, y ≠ m → replaces m y = true := fun y hy => hbest y (by simp [hy])
      rw [List.foldl_cons]
      by_cases hx : x = m
      · subst hx
        have hmeets : meets existing x = some x := by
          unfold meets
          split
          · rfl
          next y =>
            split_ifs with hreplaces
            · rfl
            · by_contra hne
              exact hreplaces (hexisting y rfl fun heq => hne (congrArg some heq))
        rw [hmeets]
        exact foldl_meets_stays htail
      · refine ih htail ((List.mem_cons.1 hm).resolve_left fun heq => hx heq.symm) ?_
        intro y hy hne
        unfold meets at hy
        split at hy
        · cases hy
          exact hbest x (by simp) hne
        next z =>
          split_ifs at hy
          · cases hy
            exact hbest x (by simp) hne
          · cases hy
            exact hexisting _ rfl hne

/-- What has been there for a while is not replaced by what does not arrive any more. -/
theorem foldl_meets_ne (hx : x ≠ m) (hm : m ∉ regs) : regs.foldl meets (some x) ≠ some m := by
  obtain ⟨reg, hreg, heq⟩ := foldl_meets_mem regs x
  rw [heq]
  rintro ⟨⟩
  exact (List.mem_cons.1 hreg).elim (fun heq => hx heq.symm) hm

/-! ## Convergence -/

/-- Nodes that start without the name and process these registrations, each in any order
and any number of times, end with the same entry. -/
def Converges (name : String) (regs : List (ActorRegistration N)) : Prop :=
  ∀ r r' : RegistrySync N, r.find name = none → r'.find name = none →
    ∀ arrivals arrivals' : List (ActorRegistration N),
      (∀ x, x ∈ arrivals ↔ x ∈ regs) → (∀ x, x ∈ arrivals' ↔ x ∈ regs) →
      (process r arrivals).find name = (process r' arrivals').find name

/-- All nodes end with the same entry just when one registration replaces all others. -/
theorem converges_iff (hname : ∀ x ∈ regs, x.name = name) :
    Converges name regs ↔
      regs = [] ∨ ∃ m ∈ regs, ∀ x ∈ regs, x ≠ m → replaces m x = true := by
  constructor
  · intro hconverges
    cases regs with
    | nil => exact .inl rfl
    | cons first regs =>
        classical
        refine .inr ?_
        obtain ⟨m, hm, hend⟩ := foldl_meets_mem regs first
        refine ⟨m, hm, fun x hx hne => ?_⟩
        by_contra hnot
        -- m arrives while x is there, and then all others do
        have hsame := hconverges (.new x.nodeId) (.new x.nodeId) rfl rfl (first :: regs)
          (x :: m :: (first :: regs).filter (· ≠ m)) (fun y => .rfl) fun y => by
            by_cases hy : y = m
            · simp [hy, List.mem_cons.1 hm]
            · by_cases hyx : y = x
              · simp [hyx, hne, List.mem_cons.1 hx]
              · simp [hy, hyx]
        have hname' : ∀ y ∈ x :: m :: (first :: regs).filter (· ≠ m), y.name = name := by
          intro y hy
          rcases List.mem_cons.1 hy with rfl | hy
          · exact hname y hx
          · rcases List.mem_cons.1 hy with rfl | hy
            · exact hname y hm
            · exact hname y (List.mem_of_mem_filter hy)
        rw [find_process _ hname, find_process _ hname'] at hsame
        have hleft : (first :: regs).foldl meets ((RegistrySync.new x.nodeId).find name) =
            some m := hend
        have hright : meets (some x) m = some x := by simp [meets, hnot]
        rw [hleft, List.foldl_cons, List.foldl_cons,
          show meets ((RegistrySync.new x.nodeId).find name) x = some x from rfl, hright] at hsame
        exact foldl_meets_ne hne (by simp) hsame.symm
  · rintro (rfl | ⟨m, hm, hbest⟩) r r' hr hr' arrivals arrivals' harrivals harrivals'
    · have hnone : ∀ xs : List (ActorRegistration N), (∀ x, x ∈ xs ↔ x ∈ []) → xs = [] :=
        fun xs hxs => List.eq_nil_iff_forall_not_mem.2 fun x hx => absurd ((hxs x).1 hx) (by simp)
      rw [hnone _ harrivals, hnone _ harrivals']
      exact hr.trans hr'.symm
    · have hend : ∀ (r : RegistrySync N) (xs : List (ActorRegistration N)),
          r.find name = none → (∀ x, x ∈ xs ↔ x ∈ regs) →
          (process r xs).find name = some m := by
        intro r xs hr hxs
        rw [find_process r fun x hx => hname x ((hxs x).1 hx), hr]
        exact foldl_meets_best (fun x hx => hbest x ((hxs x).1 hx)) ((hxs m).2 hm) nofun
      rw [hend r arrivals hr harrivals, hend r' arrivals' hr' harrivals']

section

/-- Node 1 learns of the registration by node 0 and takes the name over, with a wall clock
that is behind.  Node 2 knows of neither, and its wall clock lies between. -/
def skewed : List (BroadcastAction Nat) :=
  [.register 0 "printer" 0 7 10, .deliver 1 0, .register 1 "printer" 1 8 1,
    .register 2 "printer" 2 9 5]

def first : ActorRegistration Nat := ((RegistrySync.new 0).register "printer" 0 7 10).2.registration

def second : ActorRegistration Nat :=
  (((RegistrySync.new 1).handleRegistryUpdate ⟨.register, first⟩).register "printer" 1 8
    1).2.registration

def third : ActorRegistration Nat := ((RegistrySync.new 2).register "printer" 2 9 5).2.registration

/-- The second replaces the first, the third the second, and the first the third. -/
theorem skewed_diverges :
    (∃ b, run Broadcast.step .init skewed = some b ∧
      b.published = [⟨.register, first⟩, ⟨.register, second⟩, ⟨.register, third⟩]) ∧
      ¬ Converges "printer" [first, second, third] := by
  refine ⟨⟨_, rfl, rfl⟩, fun hconverges => ?_⟩
  have hsame := hconverges (.new 3) (.new 4) rfl rfl [first, third, second]
    [second, first, third] (fun x => by simp; tauto) fun x => by simp; tauto
  have hleft : ((process (.new 3) [first, third, second]).find "printer").map
      ActorRegistration.actorId = some 8 := by decide
  have hright : ((process (.new 4) [second, first, third]).find "printer").map
      ActorRegistration.actorId = some 9 := by decide
  rw [hsame, hright] at hleft
  cases hleft

theorem converges_iff_two :
    Converges "printer" [first, second] ↔
      [first, second] = [] ∨ ∃ m ∈ [first, second], ∀ x ∈ [first, second],
        x ≠ m → replaces m x = true :=
  converges_iff (by decide)

end

end Libeam.Proofs.Convergence
