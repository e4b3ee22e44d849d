import Mathlib.Algebra.Order.BigOperators.Group.List
import Mathlib.Algebra.Order.Group.Int
import Mathlib.Data.List.Nodup
import Mathlib.Tactic.Ring
/-!
# Maps in the order of insertion

A map that lists its entries in the order in which their keys were added.  Setting
a key that is there keeps its place; a key that was deleted and is set again goes
to the end.
-/

namespace Libeam.Lib

@[ext] structure OrderedMap (κ ν : Type*) where
  entries : List (κ × ν)
  nodup : (entries.map Prod.fst).Nodup

namespace OrderedMap

variable {κ ν ν' : Type*}

def empty : OrderedMap κ ν := ⟨[], List.nodup_nil⟩

def size (m : OrderedMap κ ν) : Nat := m.entries.length

def keys (m : OrderedMap κ ν) : List κ := m.entries.map Prod.fst

def values (m : OrderedMap κ ν) : List ν := m.entries.map Prod.snd

/-- The map with `f` applied to every value. -/
def map (f : ν → ν') (m : OrderedMap κ ν) : OrderedMap κ ν' :=
  ⟨m.entries.map fun e => (e.1, f e.2), by simpa [Function.comp_def] using m.nodup⟩

/-- The entries that satisfy `p`, in their order. -/
def filter (m : OrderedMap κ ν) (p : κ × ν → Bool) : OrderedMap κ ν :=
  ⟨m.entries.filter p, m.nodup.sublist (List.filter_sublist.map _)⟩

/-- The map without its `n` oldest entries. -/
def drop (m : OrderedMap κ ν) (n : Nat) : OrderedMap κ ν :=
  ⟨m.entries.drop n, m.nodup.sublist ((List.drop_sublist n _).map _)⟩

@[simp] theorem entries_filter (m : OrderedMap κ ν) (p : κ × ν → Bool) :
    (m.filter p).entries = m.entries.filter p := rfl

variable [DecidableEq κ]

def get (m : OrderedMap κ ν) (k : κ) : Option ν :=
  (m.entries.find? fun e => e.1 = k).map Prod.snd

def has (m : OrderedMap κ ν) (k : κ) : Bool := (m.get k).isSome

/-- The value under the key is changed where it stands. -/
def modify (m : OrderedMap κ ν) (k : κ) (f : ν → ν) : OrderedMap κ ν :=
  ⟨m.entries.map fun e => (e.1, if e.1 = k then f e.2 else e.2),
    by simpa [Function.comp_def] using m.nodup⟩

def delete (m : OrderedMap κ ν) (k : κ) : OrderedMap κ ν :=
  ⟨m.entries.filter fun e => e.1 ≠ k, m.nodup.sublist (List.filter_sublist.map _)⟩

omit [DecidableEq κ] in
theorem mem_keys {m : OrderedMap κ ν} {k : κ} : k ∈ m.keys ↔ ∃ v, (k, v) ∈ m.entries := by
  simp [keys]

omit [DecidableEq κ] in
theorem keys_eq_nil {m : OrderedMap κ ν} : m.keys = [] ↔ m.entries = [] := List.map_eq_nil_iff

theorem get_empty (k : κ) : (empty : OrderedMap κ ν).get k = none := rfl

theorem get_eq_some {m : OrderedMap κ ν} {k : κ} {v : ν} :
    m.get k = some v ↔ (k, v) ∈ m.entries := by
  obtain ⟨entries, nodup⟩ := m
  unfold get
  induction entries with
  | nil => simp
  | cons e es ih =>
      have hes : (es.map Prod.fst).Nodup := (List.nodup_cons.1 nodup).2
      have hnot : e.1 ∉ es.map Prod.fst := (List.nodup_cons.1 nodup).1
      obtain ⟨k', v'⟩ := e
      by_cases hk : k' = k
      · subst hk
        have hout : (k', v) ∉ es := fun hv => hnot (List.mem_map.2 ⟨_, hv, rfl⟩)
        simp [hout, eq_comm]
      · rw [List.find?_cons_of_neg (by simpa using hk)]
        simp [ih hes, Ne.symm hk]

theorem mem_values {m : OrderedMap κ ν} {v : ν} : v ∈ m.values ↔ ∃ k, m.get k = some v := by
  simp [values, get_eq_some]

theorem get_eq_none {m : OrderedMap κ ν} {k : κ} : m.get k = none ↔ k ∉ m.keys := by
  rw [mem_keys]
  constructor
  · rintro h ⟨v, hv⟩
    rw [get_eq_some.2 hv] at h
    exact nomatch h
  · intro h
    cases hk : m.get k with
    | none => rfl
    | some v => exact absurd ⟨v, get_eq_some.1 hk⟩ h

theorem has_iff {m : OrderedMap κ ν} {k : κ} : m.has k = true ↔ k ∈ m.keys := by
  rw [has, Option.isSome_iff_ne_none, ne_eq, get_eq_none, not_not]

/-- A key keeps its place when it is set again, and is added at the end otherwise. -/
def set (m : OrderedMap κ ν) (k : κ) (v : ν) : OrderedMap κ ν :=
  if h : k ∈ m.keys then m.modify k fun _ => v
  else ⟨m.entries ++ [(k, v)], by
    rw [List.map_append]
    refine m.nodup.append (List.nodup_singleton k) ?_
    rw [List.map_singleton, List.disjoint_singleton]
    exact h⟩

/-! ## Lookup -/

@[simp] theorem get_map (f : ν → ν') (m : OrderedMap κ ν) (k : κ) :
    (m.map f).get k = (m.get k).map f := by
  simp only [get, map, List.find?_map, Option.map_map]
  rfl

omit [DecidableEq κ] in
@[simp] theorem keys_map (f : ν → ν') (m : OrderedMap κ ν) : (m.map f).keys = m.keys := by
  simp [keys, map]

@[simp] theorem keys_modify (m : OrderedMap κ ν) (k : κ) (f : ν → ν) :
    (m.modify k f).keys = m.keys := by
  simp [keys, modify]

theorem mem_keys_set {m : OrderedMap κ ν} {k k' : κ} {v : ν} :
    k' ∈ (m.set k v).keys ↔ k' ∈ m.keys ∨ k' = k := by
  unfold set
  split_ifs with h
  · rw [keys_modify]
    exact ⟨.inl, fun hk => hk.elim (fun hk => hk) fun hk => hk ▸ h⟩
  · simp [keys]

theorem entries_set_of_not_mem {m : OrderedMap κ ν} {k : κ} (h : k ∉ m.keys) (v : ν) :
    (m.set k v).entries = m.entries ++ [(k, v)] := by
  rw [set, dif_neg h]

theorem mem_keys_delete {m : OrderedMap κ ν} {k k' : κ} :
    k' ∈ (m.delete k).keys ↔ k' ∈ m.keys ∧ k' ≠ k := by
  simp only [mem_keys, delete, List.mem_filter, decide_eq_true_eq]
  exact ⟨fun ⟨v, hv, hk⟩ => ⟨⟨v, hv⟩, hk⟩, fun ⟨⟨v, hv⟩, hk⟩ => ⟨v, hv, hk⟩⟩

theorem get_modify (m : OrderedMap κ ν) (k k' : κ) (f : ν → ν) :
    (m.modify k f).get k' = if k' = k then (m.get k').map f else m.get k' := by
  have hfind : (m.modify k f).entries.find? (fun e => e.1 = k') =
      (m.entries.find? fun e => e.1 = k').map
        fun e => (e.1, if e.1 = k then f e.2 else e.2) := by
    simp only [modify, List.find?_map]
    rfl
  unfold get
  rw [hfind]
  cases he : m.entries.find? fun e => e.1 = k' with
  | none => simp
  | some e =>
      have hk : e.1 = k' := by simpa using List.find?_some he
      simp only [Option.map_some, hk]
      split_ifs <;> rfl

theorem get_modify_of {m : OrderedMap κ ν} {k : κ} {v : ν} (h : m.get k = some v) (f : ν → ν)
    (k' : κ) : (m.modify k f).get k' = if k' = k then some (f v) else m.get k' := by
  rw [get_modify]
  split_ifs with hk
  · rw [hk, h]
    rfl
  · rfl

theorem get_set (m : OrderedMap κ ν) (k k' : κ) (v : ν) :
    (m.set k v).get k' = if k' = k then some v else m.get k' := by
  unfold set
  split_ifs with hin hk hk
  · obtain ⟨v', hv'⟩ := mem_keys.1 hin
    rw [get_modify, if_pos hk, hk, get_eq_some.2 hv']
    rfl
  · rw [get_modify, if_neg hk]
  · have hnone : m.entries.find? (fun e => e.1 = k) = none := by
      simpa [get] using get_eq_none.2 hin
    simp [get, List.find?_append, hnone, hk]
  · simp [get, List.find?_append, Ne.symm hk]

theorem mem_set {m : OrderedMap κ ν} {k : κ} {v : ν} {e : κ × ν}
    (h : e ∈ (m.set k v).entries) : e = (k, v) ∨ e ∈ m.entries := by
  have hget := get_eq_some.2 (show (e.1, e.2) ∈ (m.set k v).entries from h)
  rw [get_set] at hget
  split_ifs at hget with hk
  · exact .inl (Prod.ext hk (Option.some.inj hget).symm)
  · exact .inr (get_eq_some.1 hget)

theorem mem_set_self (m : OrderedMap κ ν) (k : κ) (v : ν) : (k, v) ∈ (m.set k v).entries :=
  get_eq_some.1 (by rw [get_set, if_pos rfl])

theorem get_delete (m : OrderedMap κ ν) (k k' : κ) :
    (m.delete k).get k' = if k' = k then none else m.get k' := by
  split_ifs with hk
  · rw [get_eq_none, mem_keys_delete]
    exact fun h => h.2 hk
  · cases hget : m.get k' with
    | none =>
        rw [get_eq_none] at hget ⊢
        exact fun h => hget (mem_keys_delete.1 h).1
    | some v =>
        rw [get_eq_some] at hget ⊢
        simpa [delete, hk] using hget

theorem filter_key {m : OrderedMap κ ν} {k : κ} {v : ν} (h : m.get k = some v) :
    m.entries.filter (fun e => e.1 = k) = [(k, v)] := by
  rw [get_eq_some] at h
  obtain ⟨entries, nodup⟩ := m
  induction entries with
  | nil => exact nomatch h
  | cons e es ih =>
      have hes : (es.map Prod.fst).Nodup := (List.nodup_cons.1 nodup).2
      have hnot : e.1 ∉ es.map Prod.fst := (List.nodup_cons.1 nodup).1
      rcases List.mem_cons.1 h with rfl | hin
      · have hrest : es.filter (fun e => e.1 = k) = [] := by
          refine List.filter_eq_nil_iff.2 fun e' he' hk => ?_
          exact hnot (List.mem_map.2 ⟨e', he', of_decide_eq_true hk⟩)
        rw [List.filter_cons_of_pos (by simp), hrest]
      · have hk : e.1 ≠ k := by
          rintro rfl
          exact hnot (List.mem_map.2 ⟨_, hin, rfl⟩)
        rw [List.filter_cons_of_neg (by simpa using hk)]
        exact ih hes hin

/-! ## The values seen through a function -/

section Map

theorem map_modify {f : ν → ν'} {g : ν → ν} {g' : ν' → ν'} (m : OrderedMap κ ν) (k : κ)
    (h : ∀ v, f (g v) = g' (f v)) : (m.modify k g).map f = (m.map f).modify k g' := by
  ext1
  simp only [map, modify, List.map_map]
  refine List.map_congr_left fun e _ => ?_
  simp only [Function.comp_def]
  split_ifs
  · rw [h]
  · rfl

/-- A change that `g` does not see. -/
theorem map_modify_of {g : ν → ν'} {m : OrderedMap κ ν} {k : κ} {f : ν → ν}
    (h : ∀ v, m.get k = some v → g (f v) = g v) : (m.modify k f).map g = m.map g := by
  ext1
  simp only [map, modify, List.map_map]
  refine List.map_congr_left fun e he => ?_
  by_cases hk : e.1 = k
  · have hget : m.get k = some e.2 := get_eq_some.2 (hk ▸ he)
    simp [hk, h _ hget]
  · simp [hk]

theorem map_congr {f g : ν → ν'} {m : OrderedMap κ ν} (h : ∀ k v, m.get k = some v → f v = g v) :
    m.map f = m.map g := by
  ext1
  refine List.map_congr_left fun e he => ?_
  rw [h e.1 e.2 (get_eq_some.2 he)]

/-- Two functions that differ in what is under one key only. -/
theorem map_eq_modify {f g : ν → ν'} {m : OrderedMap κ ν} {k : κ} {g' : ν' → ν'}
    (h : ∀ k' v, m.get k' = some v → g v = if k' = k then g' (f v) else f v) :
    m.map g = (m.map f).modify k g' := by
  ext1
  simp only [map, modify, List.map_map]
  refine List.map_congr_left fun e he => ?_
  rw [h e.1 e.2 (get_eq_some.2 he)]
  rfl

theorem map_set (f : ν → ν') (m : OrderedMap κ ν) (k : κ) (v : ν) :
    (m.set k v).map f = (m.map f).set k (f v) := by
  unfold set
  by_cases h : k ∈ m.keys
  · rw [dif_pos h, dif_pos (by simpa using h)]
    exact map_modify m k fun _ => rfl
  · rw [dif_neg h, dif_neg (by simpa using h)]
    ext1
    simp [map]

theorem map_delete (f : ν → ν') (m : OrderedMap κ ν) (k : κ) :
    (m.delete k).map f = (m.map f).delete k := by
  ext1
  simp [map, delete, List.filter_map, Function.comp_def]

omit [DecidableEq κ] in
theorem map_map {ν'' : Type*} (f : ν → ν') (g : ν' → ν'') (m : OrderedMap κ ν) :
    (m.map f).map g = m.map fun v => g (f v) := by
  ext1
  simp [map, Function.comp_def]

omit [DecidableEq κ] in
theorem map_id' (m : OrderedMap κ ν) : m.map (fun v => v) = m := by
  ext1
  exact List.map_id _

/-- Changing the values of all keys, one key after the other. -/
theorem foldl_modify (m : OrderedMap κ ν) (f : ν → ν) :
    m.keys.foldl (fun m k => m.modify k f) m = m.map f := by
  have hgo : ∀ (ks : List κ) (m : OrderedMap κ ν), ks.Nodup →
      (ks.foldl (fun m k => m.modify k f) m).entries =
        m.entries.map fun e => (e.1, if e.1 ∈ ks then f e.2 else e.2) := by
    intro ks
    induction ks with
    | nil =>
        intro m _
        simp
    | cons k ks ih =>
        intro m hnodup
        obtain ⟨hk, hks⟩ := List.nodup_cons.1 hnodup
        rw [List.foldl_cons, ih _ hks]
        simp only [modify, List.map_map, Function.comp_def]
        refine List.map_congr_left fun e _ => ?_
        by_cases he : e.1 = k
        · simp [he, hk]
        · simp [he]
  ext1
  rw [hgo m.keys m m.nodup]
  refine List.map_congr_left fun e he => ?_
  rw [if_pos (mem_keys.2 ⟨e.2, he⟩)]

end Map

/-! ## Sums over the values -/

/-- The sum of the values of a map to numbers. -/
def sum (m : OrderedMap κ Int) : Int := m.values.sum

theorem sum_modify {m : OrderedMap κ Int} {k : κ} {v : Int} (h : m.get k = some v)
    (f : Int → Int) : (m.modify k f).sum = m.sum - v + f v := by
  rw [get_eq_some] at h
  obtain ⟨entries, nodup⟩ := m
  simp only [sum, values, modify, List.map_map] at h ⊢
  induction entries with
  | nil => exact nomatch h
  | cons e es ih =>
      have hes : (es.map Prod.fst).Nodup := (List.nodup_cons.1 nodup).2
      have hnot : e.1 ∉ es.map Prod.fst := (List.nodup_cons.1 nodup).1
      simp only [List.map_cons, List.sum_cons, Function.comp_def]
      rcases List.mem_cons.1 h with rfl | hin
      · have hrest : es.map (fun e => if e.1 = k then f e.2 else e.2) = es.map Prod.snd := by
          refine List.map_congr_left fun e he => if_neg ?_
          rintro rfl
          exact hnot (List.mem_map.2 ⟨e, he, rfl⟩)
        rw [if_pos rfl, hrest]
        ring
      · have hk : e.1 ≠ k := by
          rintro rfl
          exact hnot (List.mem_map.2 ⟨_, hin, rfl⟩)
        have hrest := ih hes hin
        simp only [Function.comp_def] at hrest
        rw [if_neg hk, hrest]
        ring

theorem modify_of_not_mem {m : OrderedMap κ ν} {k : κ} (h : k ∉ m.keys) (f : ν → ν) :
    m.modify k f = m := by
  ext1
  simp only [modify]
  conv_rhs => rw [← List.map_id m.entries]
  refine List.map_congr_left fun e he => ?_
  rw [if_neg]
  · rfl
  · rintro rfl
    exact h (mem_keys.2 ⟨e.2, he⟩)

theorem delete_of_not_mem {m : OrderedMap κ ν} {k : κ} (h : k ∉ m.keys) : m.delete k = m := by
  ext1
  refine List.filter_eq_self.2 fun e he => ?_
  have hne : e.1 ≠ k := fun heq => h (heq ▸ List.mem_map_of_mem he)
  simpa using hne

theorem sum_delete (m : OrderedMap κ Int) (k : κ) :
    (m.delete k).sum = m.sum - (m.get k).getD 0 := by
  obtain ⟨entries, nodup⟩ := m
  simp only [sum, values, delete, get]
  induction entries with
  | nil => rfl
  | cons e es ih =>
      have hes : (es.map Prod.fst).Nodup := (List.nodup_cons.1 nodup).2
      have hnot : e.1 ∉ es.map Prod.fst := (List.nodup_cons.1 nodup).1
      by_cases hk : e.1 = k
      · have hrest : es.filter (fun e => e.1 ≠ k) = es := by
          refine List.filter_eq_self.2 fun e' he' => decide_eq_true ?_
          rintro rfl
          exact hnot (List.mem_map.2 ⟨e', he', hk.symm⟩)
        rw [List.filter_cons_of_neg (by simpa using hk), hrest]
        simp [hk]
      · rw [List.filter_cons_of_pos (by simpa using hk), List.find?_cons_of_neg (by simpa using hk),
          List.map_cons, List.sum_cons, ih hes, List.map_cons, List.sum_cons]
        ring

theorem sum_set (m : OrderedMap κ Int) (k : κ) (v : Int) :
    (m.set k v).sum = m.sum - (m.get k).getD 0 + v := by
  unfold set
  split_ifs with h
  · cases hk : m.get k with
    | none => exact absurd h (get_eq_none.1 hk)
    | some w => exact sum_modify hk fun _ => v
  · rw [get_eq_none.2 h]
    simp [sum, values]

theorem modify_eq_self {m : OrderedMap κ ν} {k : κ} {f : ν → ν} (h : ∀ v, f v = v) :
    m.modify k f = m := by
  ext1
  simp only [modify, h, ite_self]
  exact List.map_id _

omit [DecidableEq κ] in
theorem sum_nonneg {m : OrderedMap κ Int} (h : ∀ v ∈ m.values, 0 ≤ v) : 0 ≤ m.sum :=
  List.sum_nonneg h

/-- A value is at most the sum, when no value is negative. -/
theorem le_sum {m : OrderedMap κ Int} (h : ∀ v ∈ m.values, 0 ≤ v) {k : κ} {v : Int}
    (hk : m.get k = some v) : v ≤ m.sum :=
  List.single_le_sum h v (List.mem_map.2 ⟨_, get_eq_some.1 hk, rfl⟩)

omit [DecidableEq κ] in
theorem sum_nonpos {m : OrderedMap κ Int} (h : ∀ v ∈ m.values, v ≤ 0) : m.sum ≤ 0 := by
  have hle := List.sum_le_card_nsmul m.values 0 h
  rwa [nsmul_zero] at hle

end OrderedMap

end Libeam.Lib
