import Mathlib.Data.List.Nodup
import Mathlib.Logic.Relation
/-!
# Trees given by the children of a node

Every node has a list of children, and nothing else is known of the trees.  A post-order
of a list of trees has every node after all that is below it, and the trees in the order
of the list.  Nothing here mentions a particular program.
-/

namespace Libeam.Lib.Forest

open Relation (ReflTransGen)

variable {α β : Type*}

/-- The nodes of the trees with these roots, each after those below it. -/
inductive PostOrder (children : α → List α) : List α → List α → Prop
  | nil : PostOrder children [] []
  | cons {c : α} {cs below rest : List α} (hbelow : PostOrder children (children c) below)
      (hrest : PostOrder children cs rest) :
      PostOrder children (c :: cs) (below ++ c :: rest)

/-- The second node is in the tree of the first. -/
def Below (children : α → List α) : α → α → Prop := ReflTransGen fun a b => b ∈ children a

variable {children : α → List α} {cs order : List α} {a b c : α}

/-- Trees whose nodes have a rank that decreases are finite. -/
theorem exists_postOrder (rank : α → Nat) (hrank : ∀ a, ∀ b ∈ children a, rank b < rank a)
    (cs : List α) : ∃ order, PostOrder children cs order := by
  have hnode : ∀ n c, rank c < n → ∃ below, PostOrder children (children c) below := by
    intro n
    induction n with
    | zero => exact fun c hc => absurd hc (Nat.not_lt_zero _)
    | succ n ih =>
        intro c hc
        have hlist : ∀ ds : List α, (∀ d ∈ ds, rank d < n) →
            ∃ order, PostOrder children ds order := by
          intro ds
          induction ds with
          | nil => exact fun _ => ⟨[], .nil⟩
          | cons d ds ihds =>
              intro hds
              obtain ⟨below, hbelow⟩ := ih d (hds d (by simp))
              obtain ⟨rest, hrest⟩ := ihds fun e he => hds e (by simp [he])
              exact ⟨_, .cons hbelow hrest⟩
        exact hlist _ fun d hd => Nat.lt_of_lt_of_le (hrank c d hd) (Nat.le_of_lt_succ hc)
  induction cs with
  | nil => exact ⟨[], .nil⟩
  | cons c cs ih =>
      obtain ⟨below, hbelow⟩ := hnode _ c (Nat.lt_succ_self _)
      obtain ⟨rest, hrest⟩ := ih
      exact ⟨_, .cons hbelow hrest⟩

namespace PostOrder

/-- The nodes under other names. -/
theorem map (h : PostOrder children cs order) {f : α → β} {named : β → List β}
    (hnamed : ∀ c ∈ order, named (f c) = (children c).map f) :
    PostOrder named (cs.map f) (order.map f) := by
  induction h with
  | nil => exact .nil
  | @cons c cs below rest _ _ ihbelow ihrest =>
      rw [List.map_cons, List.map_append, List.map_cons]
      refine .cons ?_ (ihrest fun d hd => hnamed d (by simp [hd]))
      rw [hnamed c (by simp)]
      exact ihbelow fun d hd => hnamed d (by simp [hd])

/-- The roots keep their order. -/
theorem roots (h : PostOrder children cs order) : cs.Sublist order := by
  induction h with
  | nil => exact .slnil
  | @cons c cs below rest _ _ _ ihrest =>
      exact (List.sublist_append_right below (c :: cs)).trans
        (List.Sublist.append_left (ihrest.cons_cons c) below)

/-- Before a node come its children, in their order. -/
theorem children_before (h : PostOrder children cs order) {before after : List α}
    (hsplit : order = before ++ a :: after) : (children a).Sublist before := by
  induction h generalizing before after with
  | nil => simp at hsplit
  | @cons c cs below rest hbelow _ ihbelow ihrest =>
      rcases List.append_eq_append_iff.1 hsplit with ⟨more, hbefore, hrest⟩ | ⟨more, hbelow', hrest⟩
      · cases more with
        | nil =>
            -- the node is the root itself
            cases hrest
            rw [hbefore, List.append_nil]
            exact hbelow.roots
        | cons d more =>
            cases hrest
            rw [hbefore]
            exact (ihrest rfl).trans ((List.sublist_cons_self c more).trans
              (List.sublist_append_right below (c :: more)))
      · cases more with
        | nil =>
            cases hrest
            rw [List.append_nil] at hbelow'
            rw [← hbelow']
            exact hbelow.roots
        | cons d more =>
            cases hrest
            exact ihbelow hbelow'

theorem mem_iff (h : PostOrder children cs order) :
    a ∈ order ↔ ∃ c ∈ cs, Below children c a := by
  induction h with
  | nil => simp
  | @cons c cs below rest _ _ ihbelow ihrest =>
      rw [List.mem_append, List.mem_cons, ihbelow, ihrest]
      constructor
      · rintro (⟨d, hd, hbelow⟩ | rfl | ⟨d, hd, hbelow⟩)
        · exact ⟨c, by simp, .head hd hbelow⟩
        · exact ⟨a, by simp, .refl⟩
        · exact ⟨d, by simp [hd], hbelow⟩
      · rintro ⟨d, hd, hbelow⟩
        rcases List.mem_cons.1 hd with rfl | hd
        · rcases Relation.ReflTransGen.cases_head hbelow with rfl | ⟨e, he, hbelow⟩
          · exact .inr (.inl rfl)
          · exact .inl ⟨e, he, hbelow⟩
        · exact .inr (.inr ⟨d, hd, hbelow⟩)

end PostOrder

/-! ## Trees without a node in two places -/

/-- A rank that decreases rules out a way back. -/
theorem Below.rank_le {rank : α → Nat} (hrank : ∀ a, ∀ b ∈ children a, rank b < rank a)
    (h : Below children a b) : rank b ≤ rank a := by
  induction h with
  | refl => exact Nat.le_refl _
  | tail _ hlast ih => exact Nat.le_trans (Nat.le_of_lt (hrank _ _ hlast)) ih

/-- Of two nodes above a third one is above the other, when nodes have one parent. -/
theorem Below.total (hunique : ∀ a a' b, b ∈ children a → b ∈ children a' → a = a')
    (ha : Below children a c) (hb : Below children b c) :
    Below children a b ∨ Below children b a := by
  induction ha generalizing b with
  | refl => exact .inr hb
  | @tail d e had hde ih =>
      rcases Relation.ReflTransGen.cases_tail hb with heq | ⟨d', hbd, hde'⟩
      · exact .inl (heq ▸ .tail had hde)
      · rw [hunique d' d e hde' hde] at hbd
        exact ih hbd

/-- No node comes twice when nodes have one parent, and no root is below another. -/
theorem PostOrder.nodup (h : PostOrder children cs order) (rank : α → Nat)
    (hrank : ∀ a, ∀ b ∈ children a, rank b < rank a)
    (hunique : ∀ a a' b, b ∈ children a → b ∈ children a' → a = a')
    (hchildren : ∀ a, (children a).Nodup) (hcs : cs.Nodup)
    (hroots : ∀ c ∈ cs, ∀ d ∈ cs, Below children c d → c = d) : order.Nodup := by
  induction h with
  | nil => exact List.nodup_nil
  | @cons c cs below rest hbelow hrest ihbelow ihrest =>
      obtain ⟨hc, hcs⟩ := List.nodup_cons.1 hcs
      have hbelow' : below.Nodup := by
        refine ihbelow (hchildren c) fun d hd e he hde => ?_
        rcases Relation.ReflTransGen.cases_tail hde with heq | ⟨d', hdd', hde'⟩
        · exact heq.symm
        · -- the parent of a child of the root would be below another of its children
          have hroot : Below children d c := hunique d' c e hde' he ▸ hdd'
          exact absurd (hrank c d hd) (Nat.not_lt.2 (hroot.rank_le hrank))
      have hrest' : rest.Nodup := ihrest hcs fun d hd e he =>
        hroots d (by simp [hd]) e (by simp [he])
      have hcbelow : c ∉ below := by
        rw [hbelow.mem_iff]
        rintro ⟨d, hd, hdc⟩
        exact absurd (hrank c d hd) (Nat.not_lt.2 (Below.rank_le hrank hdc))
      have hdisjoint : ∀ x, Below children c x → x ∉ rest := by
        intro x hx hmem
        obtain ⟨d, hd, hdx⟩ := hrest.mem_iff.1 hmem
        have heq : c = d := by
          rcases Below.total hunique hx hdx with hcd | hdc
          · exact hroots c (by simp) d (by simp [hd]) hcd
          · exact (hroots d (by simp [hd]) c (by simp) hdc).symm
        exact hc (heq ▸ hd)
      rw [List.nodup_append, List.nodup_cons]
      refine ⟨hbelow', ⟨hdisjoint c .refl, hrest'⟩, fun x hx y hy => ?_⟩
      rintro rfl
      rcases List.mem_cons.1 hy with rfl | hy
      · exact hcbelow hx
      · obtain ⟨d, hd, hdx⟩ := hbelow.mem_iff.1 hx
        exact hdisjoint x (.head hd hdx) hy

end Libeam.Lib.Forest
