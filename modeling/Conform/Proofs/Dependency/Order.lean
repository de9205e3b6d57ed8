/-
  Conform.Proofs.Dependency.Order

  The search that orders a graph of dependencies, as a relation without a bound.
  In a graph whose edges end at its nodes the bound is never reached, so the search
  has the result that the relation gives. What is left in the end is every node of
  the graph, and none of them twice: between two visits, the nodes that are entered
  are those that are left and those on the stack.
-/

import Mathlib.Data.List.Nodup
import Mathlib.Data.List.Perm.Subperm
import Conform.Dependency.Order

namespace Conform

namespace DependencyGraph

variable {g : DependencyGraph} {stack : List String} {search after : Search}

/-! ## Edges -/

/-- Whether a node depends on another one. -/
def DependsOn (g : DependencyGraph) (node dep : String) : Prop := (node, dep) ∈ g.edges

theorem mem_dependencies {node dep : String} :
    dep ∈ g.dependencies node ↔ g.DependsOn node dep := by
  rw [dependencies, DependsOn, List.mem_map]
  constructor
  · rintro ⟨edge, hedge, rfl⟩
    obtain ⟨hmem, hfrom⟩ := List.mem_filter.mp hedge
    exact (beq_iff_eq.mp hfrom) ▸ hmem
  · intro h
    exact ⟨(node, dep), List.mem_filter.mpr ⟨h, beq_self_eq_true node⟩, rfl⟩

/-- Whether all edges end at nodes of the graph. -/
def Closed (g : DependencyGraph) : Prop := ∀ node dep, g.DependsOn node dep → dep ∈ g.nodes

theorem Closed.dependencies_subset (hg : g.Closed) (node : String) :
    g.dependencies node ⊆ g.nodes :=
  fun dep h => hg node dep (mem_dependencies.mp h)

/-! ## The search without a bound -/

/-- The search with a node entered. -/
def Search.enter (search : Search) (node : String) : Search :=
  { search with entered := node :: search.entered }

/-- The search with a node left behind all others. -/
def Search.leave (search : Search) (node : String) : Search :=
  { search with order := search.order ++ [node] }

/-- Visits of nodes, one after the other, below the nodes of a stack, and what they
    come to. -/
inductive Searches (g : DependencyGraph) :
    List String → Search → List String → Except String Search → Prop where
  | done {stack : List String} {search : Search} : Searches g stack search [] (.ok search)
  /-- A node is entered again from below itself. -/
  | cycle {stack : List String} {search : Search} {node : String} {rest : List String} :
      node ∈ stack → Searches g stack search (node :: rest) (.error node)
  | skip {stack : List String} {search : Search} {node : String} {rest : List String}
      {result : Except String Search} :
      node ∉ stack → node ∈ search.entered → Searches g stack search rest result →
      Searches g stack search (node :: rest) result
  | fail {stack : List String} {search : Search} {node found : String} {rest : List String} :
      node ∉ stack → node ∉ search.entered →
      Searches g (node :: stack) (search.enter node) (g.dependencies node) (.error found) →
      Searches g stack search (node :: rest) (.error found)
  | visit {stack : List String} {search below : Search} {node : String} {rest : List String}
      {result : Except String Search} :
      node ∉ stack → node ∉ search.entered →
      Searches g (node :: stack) (search.enter node) (g.dependencies node) (.ok below) →
      Searches g stack (below.leave node) rest result →
      Searches g stack search (node :: rest) result

/-- The relation leaves no choice. -/
theorem Searches.unique {nodes : List String} {result other : Except String Search}
    (h : g.Searches stack search nodes result) (h' : g.Searches stack search nodes other) :
    result = other := by
  induction h generalizing other with
  | done => cases h' with | done => rfl
  | cycle hstack => cases h' <;> first | rfl | contradiction
  | skip hstack hentered _ ih =>
      cases h' with
      | cycle => contradiction
      | skip _ _ hrest => exact ih hrest
      | fail => contradiction
      | visit => contradiction
  | fail hstack hentered _ ih =>
      cases h' with
      | cycle => contradiction
      | skip => contradiction
      | fail _ _ hbelow => rw [Except.error.inj (ih hbelow)]
      | visit _ _ hbelow => cases ih hbelow
  | visit hstack hentered _ _ ihbelow ihrest =>
      cases h' with
      | cycle => contradiction
      | skip => contradiction
      | fail _ _ hbelow => cases ihbelow hbelow
      | visit _ _ hbelow hrest =>
          cases ihbelow hbelow
          exact ihrest hrest

/-- Visits come to what the relation says, as long as the fuel makes up for the
    nodes that are not on the stack. The stack has no node twice, so that it cannot
    outgrow the graph. -/
theorem searches_foldlM_visit (hg : g.Closed) {fuel : Nat} {nodes : List String}
    (hfuel : fuel + stack.length = g.nodes.length + 1) (hnodup : stack.Nodup)
    (hstack : stack ⊆ g.nodes) (hnodes : nodes ⊆ g.nodes) :
    g.Searches stack search nodes (nodes.foldlM (visit g fuel stack) search) := by
  induction fuel generalizing stack search nodes with
  | zero =>
      have hlength := (hnodup.subperm hstack).length_le
      omega
  | succ fuel ih =>
      induction nodes generalizing search with
      | nil => exact .done
      | cons node rest ihrest =>
          obtain ⟨hnode, hrest⟩ := List.cons_subset.mp hnodes
          rw [List.foldlM_cons, DependencyGraph.visit]
          by_cases hon : node ∈ stack
          · simp only [List.contains_eq_mem, hon, decide_true, if_true]
            exact .cycle hon
          by_cases hentered : node ∈ search.entered
          · simp only [List.contains_eq_mem, hon, hentered, decide_false, decide_true,
              Bool.false_eq_true, if_false, if_true]
            exact .skip hon hentered (ihrest hrest)
          simp only [List.contains_eq_mem, hon, hentered, decide_false, Bool.false_eq_true, if_false]
          have hbelow : g.Searches (node :: stack) (search.enter node) (g.dependencies node) _ :=
            ih (by rw [List.length_cons]; omega) (List.nodup_cons.mpr ⟨hon, hnodup⟩)
              (List.cons_subset.mpr ⟨hnode, hstack⟩) (hg.dependencies_subset node)
          generalize hresult : (g.dependencies node).foldlM (DependencyGraph.visit g fuel (node :: stack))
            (search.enter node) = result at hbelow
          rw [Search.enter] at hresult
          rw [hresult]
          cases result with
          | error found => exact .fail hon hentered hbelow
          | ok below => exact .visit hon hentered hbelow (ihrest hrest)

/-- The search of the whole graph, from nothing. -/
theorem searches_nodes (hg : g.Closed) :
    g.Searches [] ⟨[], []⟩ g.nodes (g.nodes.foldlM (visit g (g.nodes.length + 1) []) ⟨[], []⟩) :=
  searches_foldlM_visit hg rfl List.nodup_nil (List.nil_subset _) (List.Subset.refl _)

/-- An order is what the search of the whole graph leaves. -/
theorem searches_of_order_eq_ok (hg : g.Closed) {order : List String} (h : g.order = .ok order) :
    ∃ search, g.Searches [] ⟨[], []⟩ g.nodes (.ok search) ∧ search.order = order := by
  rw [DependencyGraph.order] at h
  obtain ⟨search, hsearch, horder⟩ := bind_eq_ok.mp h
  cases horder
  exact ⟨search, hsearch ▸ searches_nodes hg, rfl⟩

/-! ## What a search leaves -/

/-- What holds of a search between two visits below the nodes of a stack. -/
structure Search.Sound (stack : List String) (search : Search) : Prop where
  nodup : search.order.Nodup
  mem_entered : ∀ node, node ∈ search.entered ↔ node ∈ search.order ∨ node ∈ stack
  not_mem_stack : ∀ node ∈ search.order, node ∉ stack

namespace Search.Sound

variable {node : String}

theorem initial : Search.Sound [] ⟨[], []⟩ :=
  ⟨List.nodup_nil, by simp, by simp⟩

/-- Entering a node puts it on the stack. -/
theorem enter (hs : search.Sound stack) (hnode : node ∉ search.entered) :
    (search.enter node).Sound (node :: stack) := by
  have hnew : node ∉ search.order := fun hmem => hnode ((hs.mem_entered node).mpr (Or.inl hmem))
  refine ⟨hs.nodup, ?_, ?_⟩
  · intro other
    simp only [Search.enter, List.mem_cons, hs.mem_entered]
    tauto
  · intro other hmem hstack
    rcases List.mem_cons.mp hstack with rfl | htail
    · exact hnew hmem
    · exact hs.not_mem_stack other hmem htail

/-- Leaving a node takes it off the stack and puts it behind all that was left. -/
theorem leave (hs : search.Sound (node :: stack)) (hnode : node ∉ stack) :
    (search.leave node).Sound stack := by
  have hnew : node ∉ search.order :=
    fun hmem => hs.not_mem_stack node hmem List.mem_cons_self
  refine ⟨?_, ?_, ?_⟩
  · exact List.nodup_append.mpr ⟨hs.nodup, List.nodup_singleton node, by
      intro a ha b hb hab
      rw [List.mem_singleton] at hb
      exact hnew (hb ▸ hab ▸ ha)⟩
  · intro other
    simp only [Search.leave, List.mem_append, hs.mem_entered, List.mem_cons]
    tauto
  · intro other hmem hstack
    rcases List.mem_append.mp hmem with hold | hlast
    · exact hs.not_mem_stack other hold (List.mem_cons_of_mem _ hstack)
    · exact hnode (List.mem_singleton.mp hlast ▸ hstack)

end Search.Sound

/-- Visits keep what holds of a search, lose nothing that was left, and leave every
    node that they are made of. -/
theorem Searches.sound {nodes : List String} (h : g.Searches stack search nodes (.ok after))
    (hs : search.Sound stack) :
    after.Sound stack ∧ search.order ⊆ after.order ∧ nodes ⊆ after.order := by
  generalize hresult : Except.ok after = result at h
  induction h generalizing after with
  | done =>
      cases hresult
      exact ⟨hs, List.Subset.refl _, List.nil_subset _⟩
  | cycle => cases hresult
  | skip hstack hentered _ ih =>
      obtain ⟨hsound, hsub, hrest⟩ := ih hs hresult
      have hleft := ((hs.mem_entered _).mp hentered).resolve_right hstack
      exact ⟨hsound, hsub, List.cons_subset.mpr ⟨hsub hleft, hrest⟩⟩
  | fail => cases hresult
  | visit hstack hentered _ _ ihbelow ihrest =>
      obtain ⟨hbelow, hsub, -⟩ := ihbelow (hs.enter hentered) rfl
      obtain ⟨hsound, hsub', hrest⟩ := ihrest (hbelow.leave hstack) hresult
      refine ⟨hsound, fun other hmem => hsub' (List.mem_append_left _ (hsub hmem)), ?_⟩
      exact List.cons_subset.mpr ⟨hsub' (List.mem_append_right _ (List.mem_singleton_self _)), hrest⟩

theorem order_sound (hg : g.Closed) {order : List String} (h : g.order = .ok order) :
    order.Nodup ∧ g.nodes ⊆ order := by
  obtain ⟨search, hsearch, rfl⟩ := searches_of_order_eq_ok hg h
  obtain ⟨hsound, -, hnodes⟩ := hsearch.sound .initial
  exact ⟨hsound.nodup, hnodes⟩

/-! ## Graphs of fields -/

theorem mem_addNode {nodes : List String} {node other : String} :
    other ∈ addNode nodes node ↔ other ∈ nodes ∨ other = node := by
  rw [addNode]
  split <;> simp_all

theorem mem_foldl_addNode {added nodes : List String} {node : String} :
    node ∈ added.foldl addNode nodes ↔ node ∈ nodes ∨ node ∈ added := by
  induction added generalizing nodes with
  | nil => simp
  | cons first rest ih => simp [ih, mem_addNode, or_assoc]

section Fields

variable {fields : List (String × List String)} {excluded : List (String × String)}

/-- The nodes of a graph of fields are the fields and what they depend on. -/
theorem mem_nodes_ofFields {node : String} :
    node ∈ (ofFields fields excluded).nodes ↔ ∃ field ∈ fields, node = field.1 ∨ node ∈ field.2 := by
  have hfold : ∀ (rest : List (String × List String)) (nodes : List String),
      node ∈ rest.foldl (fun nodes field => field.2.foldl addNode (addNode nodes field.1)) nodes ↔
        node ∈ nodes ∨ ∃ field ∈ rest, node = field.1 ∨ node ∈ field.2 := by
    intro rest
    induction rest with
    | nil => simp
    | cons field rest ih =>
        intro nodes
        simp only [List.foldl_cons, ih, mem_foldl_addNode, mem_addNode, List.exists_mem_cons_iff,
          or_assoc]
  exact (hfold fields []).trans (by simp)

/-- The edges of a graph of fields lead from a field to what it depends on, unless
    they are excluded. -/
theorem dependsOn_ofFields {node dep : String} :
    (ofFields fields excluded).DependsOn node dep ↔
      ∃ field ∈ fields, field.1 = node ∧ dep ∈ field.2 ∧ (node, dep) ∉ excluded := by
  simp only [DependsOn, ofFields, List.mem_flatMap, List.mem_map, List.mem_filter, Prod.mk.injEq]
  constructor
  · rintro ⟨field, hfield, other, ⟨hdep, hexcluded⟩, rfl, rfl⟩
    exact ⟨field, hfield, rfl, hdep, by simpa using hexcluded⟩
  · rintro ⟨field, hfield, rfl, hdep, hexcluded⟩
    exact ⟨field, hfield, dep, ⟨hdep, by simpa using hexcluded⟩, rfl, rfl⟩

theorem closed_ofFields : (ofFields fields excluded).Closed := by
  intro node dep h
  obtain ⟨field, hfield, -, hdep, -⟩ := dependsOn_ofFields.mp h
  exact mem_nodes_ofFields.mpr ⟨field, hfield, Or.inr hdep⟩

end Fields

end DependencyGraph

end Conform
