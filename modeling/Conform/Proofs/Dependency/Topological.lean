/-
  Conform.Proofs.Dependency.Topological

  The order of the fields of an object is topological: it holds the fields and what
  they depend on, each once, and every field behind all that it depends on. There is
  no order exactly if some field depends on itself, at once or through others, and
  the failure then names a field or a name that does.
-/

import Mathlib.Logic.Relation
import Conform.Schema.Build
import Conform.Proofs.Dependency.Order

namespace Conform

namespace DependencyGraph

variable {g : DependencyGraph} {stack nodes order : List String} {search after : Search}
  {node dep : String}

-- ============================================================================
-- Topological orders
-- ============================================================================

/-- Whether every entry of an order stands behind all that it depends on. -/
def Topological (g : DependencyGraph) (order : List String) : Prop :=
  ∀ before node rest, order = before ++ node :: rest → ∀ dep, g.DependsOn node dep → dep ∈ before

namespace Topological

theorem nil : g.Topological [] := by
  intro before node rest h
  exact absurd h (by simp)

/-- A node may be put behind an order that holds all that it depends on. -/
theorem concat (h : g.Topological order) (hdeps : g.dependencies node ⊆ order) :
    g.Topological (order ++ [node]) := by
  intro before other rest heq dep hdep
  rcases List.eq_nil_or_concat rest with rfl | ⟨rest, last, rfl⟩
  · obtain ⟨rfl, hlast⟩ := List.append_inj' heq rfl
    cases hlast
    exact hdeps (mem_dependencies.mpr hdep)
  · rw [List.concat_eq_append, ← List.cons_append, ← List.append_assoc] at heq
    exact h before other rest (List.append_inj' heq rfl).1 dep hdep

/-- What an entry depends on stands before its first occurrence. -/
theorem idxOf_lt (h : g.Topological order) (hdep : g.DependsOn node dep) (hnode : node ∈ order) :
    dep ∈ order ∧ order.idxOf dep < order.idxOf node := by
  obtain ⟨before, rest, heq, hnot⟩ := List.eq_append_cons_of_mem hnode
  have hbefore : dep ∈ before := h before node rest heq dep hdep
  subst heq
  refine ⟨List.mem_append_left _ hbefore, ?_⟩
  rw [List.idxOf_append_of_mem hbefore, List.idxOf_append_of_notMem hnot, List.idxOf_cons_self]
  exact Nat.lt_of_lt_of_le (List.idxOf_lt_length_iff.mpr hbefore) (Nat.le_refl _)

/-- An entry of a topological order does not depend on itself, however many steps
    it takes. -/
theorem not_transGen_self (h : g.Topological order) (hnode : node ∈ order) :
    ¬ Relation.TransGen g.DependsOn node node := by
  have hlt : ∀ other, Relation.TransGen g.DependsOn node other →
      other ∈ order ∧ order.idxOf other < order.idxOf node := by
    intro other hpath
    induction hpath with
    | single hdep => exact h.idxOf_lt hdep hnode
    | tail _ hdep ih =>
        obtain ⟨hmem, hstep⟩ := h.idxOf_lt hdep ih.1
        exact ⟨hmem, Nat.lt_trans hstep ih.2⟩
  intro hcycle
  exact Nat.lt_irrefl _ (hlt node hcycle).2

end Topological

-- ============================================================================
-- What the search comes to
-- ============================================================================

/-- Visits keep an order topological: when a node is left, all that it depends on has
    been left before. -/
theorem Searches.topological (h : g.Searches stack search nodes (.ok after))
    (hs : search.Sound stack) (ht : g.Topological search.order) : g.Topological after.order := by
  generalize hresult : Except.ok after = result at h
  induction h generalizing after with
  | done =>
      cases hresult
      exact ht
  | cycle => cases hresult
  | skip _ _ _ ih => exact ih hs ht hresult
  | fail => cases hresult
  | visit hstack hentered hbelow _ ihbelow ihrest =>
      have henter := hs.enter hentered
      obtain ⟨hsound, -, hdeps⟩ := hbelow.sound henter
      exact ihrest (hsound.leave hstack) ((ihbelow henter ht rfl).concat hdeps) hresult

/-- Visits enter nothing but nodes of the graph. -/
theorem Searches.entered_subset (hg : g.Closed) (h : g.Searches stack search nodes (.ok after))
    (hnodes : nodes ⊆ g.nodes) (hentered : search.entered ⊆ g.nodes) :
    after.entered ⊆ g.nodes := by
  generalize hresult : Except.ok after = result at h
  induction h generalizing after with
  | done =>
      cases hresult
      exact hentered
  | cycle => cases hresult
  | skip _ _ _ ih => exact ih (List.cons_subset.mp hnodes).2 hentered hresult
  | fail => cases hresult
  | visit _ _ _ _ ihbelow ihrest =>
      obtain ⟨hnode, hrest⟩ := List.cons_subset.mp hnodes
      have hbelow := ihbelow (hg.dependencies_subset _) (List.cons_subset.mpr ⟨hnode, hentered⟩) rfl
      exact ihrest hrest hbelow hresult

/-- A search that fails has found a cycle. Every node of the stack leads to the nodes
    that are visited below it, so one that is entered again leads to itself. -/
theorem Searches.cyclic {found : String} (h : g.Searches stack search nodes (.error found))
    (hpath : ∀ above ∈ stack, ∀ node ∈ nodes, Relation.TransGen g.DependsOn above node) :
    Relation.TransGen g.DependsOn found found := by
  generalize hresult : Except.error found = result at h
  induction h with
  | done => cases hresult
  | cycle hstack =>
      cases hresult
      exact hpath _ hstack _ List.mem_cons_self
  | skip _ _ _ ih =>
      exact ih (fun above ha node hn => hpath above ha node (List.mem_cons_of_mem _ hn)) hresult
  | fail _ _ _ ih =>
      refine ih ?_ hresult
      intro above habove dep hdep
      have hedge := mem_dependencies.mp hdep
      rcases List.mem_cons.mp habove with rfl | hstack
      · exact .single hedge
      · exact (hpath above hstack _ List.mem_cons_self).tail hedge
  | visit _ _ _ _ _ ihrest =>
      exact ihrest (fun above ha node hn => hpath above ha node (List.mem_cons_of_mem _ hn)) hresult

-- ============================================================================
-- Orders of graphs
-- ============================================================================

theorem order_topological (hg : g.Closed) (h : g.order = .ok order) : g.Topological order := by
  obtain ⟨search, hsearch, rfl⟩ := searches_of_order_eq_ok hg h
  exact hsearch.topological .initial .nil

theorem mem_order_iff (hg : g.Closed) (h : g.order = .ok order) : node ∈ order ↔ node ∈ g.nodes := by
  refine ⟨fun hmem => ?_, fun hmem => (order_sound hg h).2 hmem⟩
  obtain ⟨search, hsearch, rfl⟩ := searches_of_order_eq_ok hg h
  obtain ⟨hsound, -, -⟩ := hsearch.sound .initial
  apply hsearch.entered_subset hg (List.Subset.refl _) (List.nil_subset _)
  exact (hsound.mem_entered node).mpr (Or.inl hmem)

theorem cyclic_of_order_eq_error (hg : g.Closed) {found : String} (h : g.order = .error found) :
    Relation.TransGen g.DependsOn found found := by
  have hsearch := searches_nodes hg
  rw [DependencyGraph.order] at h
  generalize g.nodes.foldlM (visit g (g.nodes.length + 1) []) ⟨[], []⟩ = result at h hsearch
  cases result with
  | error other =>
      cases h
      exact hsearch.cyclic (by simp)
  | ok search => exact absurd h (by simp [bind, Except.bind, pure, Except.pure])

/-- A graph with a cycle has no order: every node of a cycle is the end of an edge,
    and so it would be an entry. -/
theorem not_cyclic_of_order_eq_ok (hg : g.Closed) (h : g.order = .ok order) :
    ¬ Relation.TransGen g.DependsOn node node := by
  intro hcycle
  have hnode : node ∈ g.nodes := by
    cases hcycle with
    | single hdep => exact hg _ _ hdep
    | tail _ hdep => exact hg _ _ hdep
  exact (order_topological hg h).not_transGen_self ((mem_order_iff hg h).mpr hnode) hcycle

/-- The search ends on every graph: without the bound it has one result, and the order
    is what that result leaves. -/
theorem order_of_searches (hg : g.Closed) :
    ∃ result, (∀ other, g.Searches [] ⟨[], []⟩ g.nodes other ↔ other = result) ∧
      g.order = result.map Search.order := by
  have hsearch := searches_nodes hg
  refine ⟨_, fun other => ⟨fun h => h.unique hsearch, fun h => h ▸ hsearch⟩, ?_⟩
  rw [DependencyGraph.order]
  cases g.nodes.foldlM (visit g (g.nodes.length + 1) []) ⟨[], []⟩ <;> rfl

end DependencyGraph

-- ============================================================================
-- Orders of fields
-- ============================================================================

/-- Whether a name is the first step of a sibling reference of the schema. -/
def Schema.DependsOn (s : Schema) (dep : String) : Prop :=
  ∃ r ∈ s.traits.deps, r.isContext = false ∧ Path.firstKey? r.path = some dep

namespace Shape

variable {fields : List (String × Schema)} {excluded : List (String × String)}
  {shape : Shape Schema}

/-- Whether a field depends on a name, and the pair is not excluded. -/
def DependsOn (fields : List (String × Schema)) (excluded : List (String × String))
    (key dep : String) : Prop :=
  ∃ f ∈ fields, f.1 = key ∧ f.2.DependsOn dep ∧ (key, dep) ∉ excluded

theorem mem_dependenciesOf {s : Schema} {dep : String} :
    dep ∈ dependenciesOf s ↔ s.DependsOn dep := by
  rw [dependenciesOf, List.mem_filterMap, Schema.DependsOn]
  refine exists_congr fun r => and_congr_right fun _ => ?_
  rw [Reference.dependency?]
  cases r.isContext <;> simp

theorem dependsOn_graph : (graph fields excluded).DependsOn = DependsOn fields excluded := by
  funext key dep
  apply propext
  rw [graph, DependencyGraph.dependsOn_ofFields]
  constructor
  · rintro ⟨field, hfield, rfl, hdep, hexcluded⟩
    obtain ⟨f, hf, rfl⟩ := List.mem_map.mp hfield
    exact ⟨f, hf, rfl, mem_dependenciesOf.mp hdep, hexcluded⟩
  · rintro ⟨f, hf, rfl, hdep, hexcluded⟩
    exact ⟨_, List.mem_map_of_mem hf, rfl, mem_dependenciesOf.mpr hdep, hexcluded⟩

theorem mem_nodes_graph {name : String} :
    name ∈ (graph fields excluded).nodes ↔ ∃ f ∈ fields, name = f.1 ∨ f.2.DependsOn name := by
  rw [graph, DependencyGraph.mem_nodes_ofFields]
  constructor
  · rintro ⟨field, hfield, hname⟩
    obtain ⟨f, hf, rfl⟩ := List.mem_map.mp hfield
    exact ⟨f, hf, hname.imp_right mem_dependenciesOf.mp⟩
  · rintro ⟨f, hf, hname⟩
    exact ⟨_, List.mem_map_of_mem hf, hname.imp_right mem_dependenciesOf.mpr⟩

theorem closed_graph : (graph fields excluded).Closed := DependencyGraph.closed_ofFields

/-- The order is that of the graph of dependencies. -/
theorem order_eq_of_sorted (h : sorted fields excluded = .ok shape) :
    (graph fields excluded).order = .ok shape.order := by
  rw [sorted] at h
  split at h
  · next order horder =>
      cases h
      exact horder
  · exact absurd h (by simp)

theorem sorted_eq_error_iff {e : Failure} :
    sorted fields excluded = .error e ↔
      ∃ node, (graph fields excluded).order = .error node ∧ e = .cyclicDependency node := by
  rw [sorted]
  cases (graph fields excluded).order with
  | ok order => simp
  | error node => simp [eq_comm]

/-- The order of a shape holds the names of the fields and the first steps of their
    sibling references, each once, and every field behind what it depends on. -/
theorem sorted_topological (h : sorted fields excluded = .ok shape) :
    shape.order.Nodup ∧
    (∀ name, name ∈ shape.order ↔ ∃ f ∈ fields, name = f.1 ∨ f.2.DependsOn name) ∧
    ∀ f ∈ fields, ∀ dep, f.2.DependsOn dep → (f.1, dep) ∉ excluded →
      ∃ before rest, shape.order = before ++ f.1 :: rest ∧ dep ∈ before := by
  have horder := order_eq_of_sorted h
  refine ⟨(DependencyGraph.order_sound closed_graph horder).1, fun name => ?_, ?_⟩
  · rw [DependencyGraph.mem_order_iff closed_graph horder, mem_nodes_graph]
  · intro f hf dep hdep hexcluded
    have hkey : f.1 ∈ shape.order := by
      rw [DependencyGraph.mem_order_iff closed_graph horder, mem_nodes_graph]
      exact ⟨f, hf, Or.inl rfl⟩
    have hedge : (graph fields excluded).DependsOn f.1 dep := by
      rw [dependsOn_graph]
      exact ⟨f, hf, rfl, hdep, hexcluded⟩
    obtain ⟨before, rest, heq⟩ := List.append_of_mem hkey
    exact ⟨before, rest, heq, DependencyGraph.order_topological closed_graph horder before f.1 rest
      heq dep hedge⟩

/-- A mixed schema with a condition on the values of references. -/
def reading (keys : List String) : Recipe :=
  .make .mixed [.when (keys.map Reference.ofKey) (.guarded (.equal .null) (some (.refine [])) none)]

/-- Two fields that read each other can be ordered without one of the two edges. The
    first step of a path is ordered with them, the context is not. -/
theorem sorted_topological_pair :
    ∃ a b shape, Workshop.initial.build none (reading ["stats.big", "$flag", "b"]) = .ok a ∧
      Workshop.initial.build none (reading ["a"]) = .ok b ∧
      sorted [("a", a), ("b", b)] [("b", "a")] = .ok shape ∧ shape.order = ["stats", "b", "a"] ∧
      shape.order.Nodup ∧ ∃ before rest, shape.order = before ++ "a" :: rest ∧ "stats" ∈ before := by
  obtain ⟨a, b, shape, ha, hb, hsorted, horder, hdep⟩ :
      ∃ a b shape, Workshop.initial.build none (reading ["stats.big", "$flag", "b"]) = .ok a ∧
        Workshop.initial.build none (reading ["a"]) = .ok b ∧
        sorted [("a", a), ("b", b)] [("b", "a")] = .ok shape ∧ shape.order = ["stats", "b", "a"] ∧
        a.DependsOn "stats" :=
    ⟨_, _, _, rfl, rfl, rfl, rfl, Reference.ofKey "stats.big", List.mem_cons_self, rfl, rfl⟩
  obtain ⟨hnodup, -, hbefore⟩ := sorted_topological hsorted
  exact ⟨a, b, shape, ha, hb, hsorted, horder, hnodup,
    hbefore ("a", a) List.mem_cons_self "stats" hdep (by simp)⟩

/-- Ordering fields fails exactly if a name depends on itself, at once or through
    others, and the failure is a cyclic dependency of such a name. The search comes
    to an end on all fields. -/
theorem sorted_fails_iff_cyclic (fields : List (String × Schema))
    (excluded : List (String × String)) :
    ((∃ e, sorted fields excluded = .error e) ↔
      ∃ name, Relation.TransGen (DependsOn fields excluded) name name) ∧
    (∀ e, sorted fields excluded = .error e →
      ∃ name, e = .cyclicDependency name ∧
        Relation.TransGen (DependsOn fields excluded) name name) ∧
    ∃ result, (∀ other, (graph fields excluded).Searches [] ⟨[], []⟩
        (graph fields excluded).nodes other ↔ other = result) ∧
      (graph fields excluded).order = result.map DependencyGraph.Search.order := by
  have hnamed : ∀ e, sorted fields excluded = .error e →
      ∃ name, e = .cyclicDependency name ∧
        Relation.TransGen (DependsOn fields excluded) name name := by
    intro e he
    obtain ⟨name, horder, rfl⟩ := sorted_eq_error_iff.mp he
    refine ⟨name, rfl, ?_⟩
    rw [← dependsOn_graph]
    exact DependencyGraph.cyclic_of_order_eq_error closed_graph horder
  refine ⟨⟨?_, ?_⟩, hnamed, DependencyGraph.order_of_searches closed_graph⟩
  · rintro ⟨e, he⟩
    obtain ⟨name, -, hcycle⟩ := hnamed e he
    exact ⟨name, hcycle⟩
  · rintro ⟨name, hcycle⟩
    rw [← dependsOn_graph] at hcycle
    cases hsorted : sorted fields excluded with
    | error e => exact ⟨e, rfl⟩
    | ok shape =>
        exact absurd hcycle
          (DependencyGraph.not_cyclic_of_order_eq_ok closed_graph (order_eq_of_sorted hsorted))

/-- The name in the failure lies on a cycle, here of `b` and `c`, and does not only
    lead to one, as `a` does. -/
theorem sorted_fails_behind_field :
    ∃ a b c, Workshop.initial.build none (reading ["b"]) = .ok a ∧
      Workshop.initial.build none (reading ["c"]) = .ok b ∧
      Workshop.initial.build none (reading ["b.x"]) = .ok c ∧
      sorted [("a", a), ("b", b), ("c", c)] [] = .error (.cyclicDependency "b") ∧
      Relation.TransGen (DependsOn [("a", a), ("b", b), ("c", c)] []) "b" "b" := by
  obtain ⟨a, b, c, ha, hb, hc, hsorted⟩ :
      ∃ a b c, Workshop.initial.build none (reading ["b"]) = .ok a ∧
        Workshop.initial.build none (reading ["c"]) = .ok b ∧
        Workshop.initial.build none (reading ["b.x"]) = .ok c ∧
        sorted [("a", a), ("b", b), ("c", c)] [] = .error (.cyclicDependency "b") :=
    ⟨_, _, _, rfl, rfl, rfl, rfl⟩
  obtain ⟨-, hnamed, -⟩ := sorted_fails_iff_cyclic [("a", a), ("b", b), ("c", c)] []
  obtain ⟨name, heq, hcycle⟩ := hnamed _ hsorted
  cases heq
  exact ⟨a, b, c, ha, hb, hc, hsorted, hcycle⟩

end Shape

end Conform
