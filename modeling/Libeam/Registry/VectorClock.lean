import Mathlib.Data.List.AList
import Mathlib.Order.Basic
import Mathlib.Order.Bounds.Basic
import Mathlib.Order.Lattice
/-!
# Vector clocks

`VectorClock` is a map from node ids to counters in which an absent entry counts
as zero.  Its meaning is the function `get`, ordered pointwise: `compare` decides
that order, `merge` is its join.
-/

namespace Libeam.Registry

structure VectorClock (N : Type) where
  clock : AList fun _ : N => Nat

inductive Causality where
  | before
  | after
  | concurrent
  deriving DecidableEq, Repr

namespace VectorClock

variable {N : Type} [DecidableEq N]

def empty : VectorClock N := ⟨∅⟩

def get (c : VectorClock N) (nodeId : N) : Nat := (c.clock.lookup nodeId).getD 0

def increment (c : VectorClock N) (nodeId : N) : VectorClock N :=
  ⟨c.clock.insert nodeId (c.get nodeId + 1)⟩

def merge (c other : VectorClock N) : VectorClock N :=
  other.clock.entries.foldl
    (fun c entry => ⟨c.clock.insert entry.1 (max (c.get entry.1) entry.2)⟩) c

/-- The node ids of both clocks. -/
def allNodes (c other : VectorClock N) : List N := c.clock.keys ++ other.clock.keys

def hasGreater (c other : VectorClock N) : Bool :=
  (allNodes c other).any fun nodeId => other.get nodeId < c.get nodeId

def hasLess (c other : VectorClock N) : Bool :=
  (allNodes c other).any fun nodeId => c.get nodeId < other.get nodeId

def compare (c other : VectorClock N) : Causality :=
  if hasGreater c other ∧ ¬ hasLess c other then .after
  else if hasLess c other ∧ ¬ hasGreater c other then .before
  else .concurrent

/-! ## The counters -/

theorem get_insert (c : VectorClock N) (n nodeId : N) (tick : Nat) :
    (⟨c.clock.insert n tick⟩ : VectorClock N).get nodeId =
      if nodeId = n then tick else c.get nodeId := by
  unfold get
  split_ifs with h
  · rw [h, AList.lookup_insert]
    rfl
  · rw [AList.lookup_insert_ne h]

theorem get_increment (c : VectorClock N) (n nodeId : N) :
    (c.increment n).get nodeId = if nodeId = n then c.get n + 1 else c.get nodeId :=
  get_insert c n nodeId _

theorem mem_keys_of_get_pos {c : VectorClock N} {nodeId : N} (h : 0 < c.get nodeId) :
    nodeId ∈ c.clock.keys := by
  rw [← AList.mem_keys]
  by_contra hmem
  rw [get, AList.lookup_eq_none.2 hmem] at h
  exact Nat.lt_irrefl 0 h

theorem get_merge (c other : VectorClock N) (nodeId : N) :
    (c.merge other).get nodeId = max (c.get nodeId) (other.get nodeId) := by
  obtain ⟨entries, hnodup⟩ := other
  unfold merge
  induction entries generalizing c with
  | nil => simp [get, AList.lookup]
  | cons entry entries ih =>
      obtain ⟨n, tick⟩ := entry
      obtain ⟨hn, hrest⟩ := List.nodupKeys_cons.1 hnodup
      have htail : ∀ c', (List.foldl (fun c entry =>
          (⟨c.clock.insert entry.1 (max (c.get entry.1) entry.2)⟩ : VectorClock N)) c'
            entries).get nodeId =
          max (c'.get nodeId) ((List.dlookup nodeId entries).getD 0) := fun c' =>
        ih c' hrest
      simp only [List.foldl_cons, htail, get_insert]
      split_ifs with h
      · -- the key occurs once, so the rest of the entries does not mention it
        subst h
        rw [List.dlookup_eq_none.2 hn]
        simp [get, AList.lookup]
      · simp [get, AList.lookup, List.dlookup_cons_ne entries ⟨n, tick⟩ h]

/-! ## Increments and merges go up -/

theorem get_le_increment (c : VectorClock N) (n m : N) : c.get m ≤ (c.increment n).get m := by
  rw [get_increment]
  split_ifs with h
  · rw [h]
    exact Nat.le_succ _
  · exact Nat.le_refl _

theorem get_lt_increment (c : VectorClock N) (n : N) : c.get < (c.increment n).get := by
  refine Pi.lt_def.2 ⟨get_le_increment c n, n, ?_⟩
  rw [get_increment, if_pos rfl]
  exact Nat.lt_succ_self _

theorem get_merge_eq_sup (c other : VectorClock N) : (c.merge other).get = c.get ⊔ other.get :=
  funext fun nodeId => get_merge c other nodeId

theorem le_merge_left (c other : VectorClock N) : c.get ≤ (c.merge other).get := by
  rw [get_merge_eq_sup]
  exact le_sup_left

theorem le_merge_right (c other : VectorClock N) : other.get ≤ (c.merge other).get := by
  rw [get_merge_eq_sup]
  exact le_sup_right

/-! ## The pointwise order -/

theorem hasGreater_iff (c other : VectorClock N) :
    hasGreater c other ↔ ¬ c.get ≤ other.get := by
  simp only [hasGreater, allNodes, List.any_eq_true, List.mem_append,
    decide_eq_true_eq, Pi.le_def, not_forall, not_le]
  constructor
  · rintro ⟨n, -, hn⟩
    exact ⟨n, hn⟩
  · rintro ⟨n, hn⟩
    exact ⟨n, .inl (mem_keys_of_get_pos (Nat.zero_lt_of_lt hn)), hn⟩

theorem hasLess_iff (c other : VectorClock N) :
    hasLess c other ↔ ¬ other.get ≤ c.get := by
  simp only [hasLess, allNodes, List.any_eq_true, List.mem_append,
    decide_eq_true_eq, Pi.le_def, not_forall, not_le]
  constructor
  · rintro ⟨n, -, hn⟩
    exact ⟨n, hn⟩
  · rintro ⟨n, hn⟩
    exact ⟨n, .inr (mem_keys_of_get_pos (Nat.zero_lt_of_lt hn)), hn⟩

theorem compare_eq_after {c other : VectorClock N} :
    c.compare other = .after ↔ other.get < c.get := by
  have hgreater := hasGreater_iff c other
  have hless := hasLess_iff c other
  rw [lt_iff_le_not_ge]
  unfold compare
  split_ifs <;> simp only [true_iff, false_iff] <;> tauto

theorem compare_eq_before {c other : VectorClock N} :
    c.compare other = .before ↔ c.get < other.get := by
  have hgreater := hasGreater_iff c other
  have hless := hasLess_iff c other
  rw [lt_iff_le_not_ge]
  unfold compare
  split_ifs <;> simp only [true_iff, false_iff] <;> tauto

theorem before_iff_after {c other : VectorClock N} :
    c.compare other = .before ↔ other.compare c = .after := by
  rw [compare_eq_before, compare_eq_after]

theorem compare_eq_concurrent {c other : VectorClock N} :
    c.compare other = .concurrent ↔ ¬ other.get < c.get ∧ ¬ c.get < other.get := by
  rw [← compare_eq_after, ← compare_eq_before]
  cases c.compare other <;> simp

/-! ## The causality lattice -/

theorem after_trans {a b c : VectorClock N} (hab : a.compare b = .after)
    (hbc : b.compare c = .after) : a.compare c = .after := by
  rw [compare_eq_after] at hab hbc ⊢
  exact hbc.trans hab

theorem isLUB_merge (a b : VectorClock N) : IsLUB {a.get, b.get} (a.merge b).get := by
  rw [get_merge_eq_sup]
  exact isLUB_pair

/-- What the registry relies on when it resolves conflicts. -/
structure CausalityLattice (N : Type) [DecidableEq N] : Prop where
  after_iff : ∀ a b : VectorClock N,
    a.compare b = .after ↔ (∀ n, b.get n ≤ a.get n) ∧ ∃ n, a.get n ≠ b.get n
  before_iff : ∀ a b : VectorClock N, a.compare b = .before ↔ b.compare a = .after
  concurrent_iff : ∀ a b : VectorClock N,
    a.compare b = .concurrent ↔ a.compare b ≠ .after ∧ b.compare a ≠ .after
  after_trans : ∀ a b c : VectorClock N,
    a.compare b = .after → b.compare c = .after → a.compare c = .after
  merge_isLUB : ∀ a b : VectorClock N, IsLUB {a.get, b.get} (a.merge b).get
  merge_comm : ∀ a b : VectorClock N, (a.merge b).get = (b.merge a).get
  merge_assoc : ∀ a b c : VectorClock N,
    ((a.merge b).merge c).get = (a.merge (b.merge c)).get
  merge_idem : ∀ a : VectorClock N, (a.merge a).get = a.get
  increment_after : ∀ (a : VectorClock N) n, (a.increment n).compare a = .after
  increment_other : ∀ (a : VectorClock N) n m, m ≠ n → (a.increment n).get m = a.get m

theorem causality_lattice : CausalityLattice N where
  after_iff a b := by
    rw [compare_eq_after, lt_iff_le_and_ne, Pi.le_def]
    exact and_congr_right' (ne_comm.trans Function.ne_iff)
  before_iff _ _ := before_iff_after
  concurrent_iff a b := by
    rw [compare_eq_concurrent, Ne, Ne, compare_eq_after, compare_eq_after]
  after_trans _ _ _ := after_trans
  merge_isLUB := isLUB_merge
  merge_comm a b := by
    rw [get_merge_eq_sup, get_merge_eq_sup, sup_comm]
  merge_assoc a b c := by
    rw [get_merge_eq_sup, get_merge_eq_sup, get_merge_eq_sup, get_merge_eq_sup, sup_assoc]
  merge_idem a := by
    rw [get_merge_eq_sup, sup_idem]
  increment_after a n := compare_eq_after.2 (get_lt_increment a n)
  increment_other a n m hm := by
    rw [get_increment, if_neg hm]

end VectorClock

end Libeam.Registry
