import Libeam.Cli.Supervisor
/-!
# The ports of the nodes of a supervisor

An automatic port is one more than the automatic port before it, and a distributed system takes
three.  Systems keep apart as long as every one is started on a port with enough room around it.
-/

namespace Libeam.Cli

open Lib

/-- Two triples that start here meet. -/
def Near (p q : Nat) : Prop := p < q + 3 ∧ q < p + 3

theorem disjoint_triple_iff {p q : Nat} :
    (triple p).Disjoint (triple q) ↔ ¬(p ≠ 0 ∧ q ≠ 0 ∧ Near p q) := by
  by_cases hp : p = 0
  · simp [triple, hp]
  · by_cases hq : q = 0
    · simp [triple, hq]
    · simp only [triple, if_neg hp, if_neg hq, List.Disjoint, Near, List.mem_cons,
        List.not_mem_nil, or_false]
      constructor
      · rintro h ⟨-, -, hlt, hlt'⟩
        rcases Nat.le_total p q with hle | hle
        · exact h (a := q) (by omega) (.inl rfl)
        · exact h (a := p) (.inl rfl) (by omega)
      · intro h x hx hx'
        exact h ⟨hp, hq, by omega, by omega⟩

section

variable (distributed : String → NodeDefinition → Bool)

/-- The ports that the system of a node binds, when its entry module creates a distributed one. -/
def bound (name : String) (node : ManagedNode) : List Nat :=
  if distributed name node.definition then triple node.port else []

/-- Whoever runs on an automatic port shares no port with another node that runs. -/
def Apart (s : NodeSupervisor) : Prop :=
  ∀ m node n node', (m, node) ∈ s.nodes.entries → (n, node') ∈ s.nodes.entries → m ≠ n →
    node.definition.isAuto → (bound distributed m node).Disjoint (bound distributed n node')

/-- A distributed system is not started next to another one that runs, unless both have been
given their ports by the configuration. -/
def Clear (s : NodeSupervisor) : Action → Prop
  | .startNode name definition =>
      name ∉ s.nodes.keys → distributed name definition → s.portFor definition ≠ 0 →
        ∀ n node, (n, node) ∈ s.nodes.entries → distributed n node.definition → node.port ≠ 0 →
          definition.isAuto ∨ node.definition.isAuto → ¬ Near (s.portFor definition) node.port
  | .exit _ => True

end

variable {distributed : String → NodeDefinition → Bool} {s t : NodeSupervisor}

theorem disjoint_bound_iff {m n : String} {node node' : ManagedNode} :
    (bound distributed m node).Disjoint (bound distributed n node') ↔
      ¬(distributed m node.definition ∧ distributed n node'.definition ∧
        node.port ≠ 0 ∧ node'.port ≠ 0 ∧ Near node.port node'.port) := by
  unfold bound
  cases distributed m node.definition with
  | false => simp
  | true =>
      cases distributed n node'.definition with
      | false => simp
      | true => simp [disjoint_triple_iff]

/-! ## One step -/

theorem step_startNode_of_mem {name : String} (h : name ∈ s.nodes.keys)
    (definition : NodeDefinition) : s.step (.startNode name definition) = some s := by
  rw [NodeSupervisor.step, NodeSupervisor.startNode, if_pos (OrderedMap.has_iff.2 h)]

theorem step_startNode {name : String} (h : name ∉ s.nodes.keys) (definition : NodeDefinition) :
    ∃ t, s.startNode name definition = .ok t ∧ s.step (.startNode name definition) = some t ∧
      t.nodes.entries = s.nodes.entries ++ [(name, ⟨definition, s.portFor definition⟩)] := by
  have hstart : ∃ t, s.startNode name definition = .ok t ∧
      t.nodes.entries = s.nodes.entries ++ [(name, ⟨definition, s.portFor definition⟩)] := by
    rw [NodeSupervisor.startNode, if_neg (fun hhas => h (OrderedMap.has_iff.1 hhas))]
    exact ⟨_, rfl, OrderedMap.entries_set_of_not_mem h _⟩
  obtain ⟨t, hok, hentries⟩ := hstart
  refine ⟨t, hok, ?_, hentries⟩
  rw [NodeSupervisor.step, hok]

theorem Apart.step (h : Apart distributed s) {a : Action} (hclear : Clear distributed s a)
    (hstep : s.step a = some t) : Apart distributed t := by
  cases a with
  | exit name =>
      obtain rfl := Option.some.inj hstep
      intro m node n node' hm hn
      exact h m node n node' (List.mem_of_mem_filter hm) (List.mem_of_mem_filter hn)
  | startNode name definition =>
      by_cases hmem : name ∈ s.nodes.keys
      · obtain rfl := Option.some.inj ((step_startNode_of_mem hmem definition).symm.trans hstep)
        exact h
      · obtain ⟨u, -, hu, hentries⟩ := step_startNode hmem definition
        obtain rfl := Option.some.inj (hu.symm.trans hstep)
        have hroom := hclear hmem
        intro m node n node' hm hn hne hauto
        rw [hentries, List.mem_append, List.mem_singleton, Prod.mk.injEq] at hm hn
        rw [disjoint_bound_iff]
        rintro ⟨hm', hn', hp, hp', hnear⟩
        rcases hm with hm | ⟨rfl, rfl⟩ <;> rcases hn with hn | ⟨rfl, rfl⟩
        · exact disjoint_bound_iff.1 (h m node n node' hm hn hne hauto) ⟨hm', hn', hp, hp', hnear⟩
        · exact hroom hn' hp' m node hm hm' hp (.inr hauto) ⟨hnear.2, hnear.1⟩
        · exact hroom hm' hp n node' hn hn' hp' (.inl hauto) hnear
        · exact hne rfl

/-- `startAll` is such a run. -/
theorem startNodes_run (s : NodeSupervisor) (nodes : List (String × NodeDefinition)) :
    ∃ n, Transition.run NodeSupervisor.step s
      ((nodes.take n).map fun node => .startNode node.1 node.2) = some (s.startNodes nodes).1 := by
  induction nodes generalizing s with
  | nil => exact ⟨0, rfl⟩
  | cons node nodes ih =>
      obtain ⟨name, definition⟩ := node
      rw [NodeSupervisor.startNodes]
      cases hstart : s.startNode name definition with
      | error e => exact ⟨0, rfl⟩
      | ok t =>
          obtain ⟨n, hn⟩ := ih t
          refine ⟨n + 1, Transition.run_cons_eq_some.2 ⟨t, ?_, hn⟩⟩
          rw [NodeSupervisor.step, hstart]

end Libeam.Cli
