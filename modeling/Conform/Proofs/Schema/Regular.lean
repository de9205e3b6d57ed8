/-
  Conform.Proofs.Schema.Regular

  What every node of a schema is like. The fields of an object stand in the order
  that their dependencies give, the sibling references of the conditions are among
  the dependencies, and the checks of type and lists are the built-in ones;
  predicates, lazy schemas and rules belong to the class of the recipes that the
  schema is made by.
-/

import Conform.Proofs.Dependency.Topological
import Conform.Proofs.Dict
import Conform.Proofs.Schema.Edits
import Conform.Proofs.Schema.Everywhere

namespace Conform

-- ============================================================================
-- Shapes
-- ============================================================================

/-- Whether the keys of a shape differ and stand in the order that the
    dependencies of its fields give. -/
structure Shape.Ordered (shape : Shape Schema) : Prop where
  keys : (Dict.keys shape.fields).Nodup
  sorted : Shape.sorted shape.fields shape.excluded = .ok shape

namespace Shape

variable {fields : List (String × Schema)} {excluded : List (String × String)}
  {shape : Shape Schema}

theorem fields_of_sorted (h : sorted fields excluded = .ok shape) :
    shape.fields = fields ∧ shape.excluded = excluded := by
  rw [sorted] at h
  split at h
  · cases h
    exact ⟨rfl, rfl⟩
  · exact absurd h (by simp)

theorem Ordered.of_sorted (hkeys : (Dict.keys fields).Nodup)
    (h : Shape.sorted fields excluded = .ok shape) : shape.Ordered := by
  obtain ⟨hfields, hexcluded⟩ := fields_of_sorted h
  exact ⟨hfields ▸ hkeys, by rw [hfields, hexcluded, h]⟩

theorem Ordered.empty : (Shape.empty : Shape Schema).Ordered :=
  ⟨List.nodup_nil, rfl⟩

theorem Ordered.nodup_order (h : shape.Ordered) : shape.order.Nodup :=
  (DependencyGraph.order_sound closed_graph (order_eq_of_sorted h.sorted)).1

theorem Ordered.mem_order (h : shape.Ordered) {key : String}
    (hkey : key ∈ Dict.keys shape.fields) : key ∈ shape.order := by
  obtain ⟨f, hf, rfl⟩ := List.mem_map.mp hkey
  apply (DependencyGraph.order_sound closed_graph (order_eq_of_sorted h.sorted)).2
  exact mem_nodes_graph.mpr ⟨f, hf, Or.inl rfl⟩

/-- A declared field stands in one place of the order. -/
theorem Ordered.split_order (h : shape.Ordered) {key : String}
    (hkey : key ∈ Dict.keys shape.fields) :
    ∃ before rest, shape.order = before ++ key :: rest ∧ key ∉ before ∧ key ∉ rest := by
  obtain ⟨before, rest, horder⟩ := List.append_of_mem (h.mem_order hkey)
  have hnodup := h.nodup_order
  rw [horder] at hnodup
  obtain ⟨-, hcons, hdisjoint⟩ := List.nodup_append.mp hnodup
  have hbefore : key ∉ before := by
    intro hmem
    exact hdisjoint key hmem key List.mem_cons_self rfl
  exact ⟨before, rest, horder, hbefore, (List.nodup_cons.mp hcons).1⟩

/-- A field stands behind the names it depends on, unless the pair is excluded. -/
theorem Ordered.mem_before (h : shape.Ordered) {f : String × Schema} (hf : f ∈ shape.fields)
    {dep : String} (hdep : f.2.DependsOn dep) (hexcluded : (f.1, dep) ∉ shape.excluded)
    {before rest : List String} (horder : shape.order = before ++ f.1 :: rest) :
    dep ∈ before := by
  have hedge : (graph shape.fields shape.excluded).DependsOn f.1 dep := by
    rw [dependsOn_graph]
    exact ⟨f, hf, rfl, hdep, hexcluded⟩
  exact DependencyGraph.order_topological closed_graph (order_eq_of_sorted h.sorted) before f.1
    rest horder dep hedge

end Shape

-- ============================================================================
-- Regular nodes
-- ============================================================================

/-- Whether a test is the check of the type, with any message. -/
def Test.ChecksType (x : Test) : Prop :=
  ∃ message, x = .named "typeError" message (.check .typed)

theorem Test.ChecksType.withMessage {x : Test} (h : x.ChecksType) (message : Message) :
    (x.withMessage message).ChecksType := by
  obtain ⟨m, rfl⟩ := h
  exact ⟨message, rfl⟩

theorem Test.ChecksType.reword {x : Test} (h : x.ChecksType) (name : String)
    (message : Message) : (Traits.reword name message x).ChecksType := by
  obtain ⟨m, hm⟩ := Traits.reword_eq name message x
  rw [hm]
  exact h.withMessage m

/-- What holds of a node of a schema that is made by recipes of a class. -/
structure Schema.Regular (C : RecipeClass) (s : Schema) : Prop where
  shape : ∀ shape, s.kind = .object shape → shape.Ordered
  pick : ∀ pick, s.kind = .lazy pick → C.pick pick
  rules : ∀ c ∈ s.conditions, C.rule c.rule
  deps : ∀ c ∈ s.conditions, ∀ r ∈ c.refs, r.isContext = false → r ∈ s.traits.deps
  predicates : ∀ x ∈ s.traits.tests, C.predicate x.predicate
  tidy : s.traits.Tidy
  typed : s.traits.typeError.ChecksType
  allowCheck : ∀ x ∈ s.traits.allowCheck, x.predicate = .check .allowed
  denyCheck : ∀ x ∈ s.traits.denyCheck, x.predicate = .check .notDenied

theorem Schema.Regular.typeError {C : RecipeClass} {s : Schema} (h : s.Regular C) :
    s.traits.typeError.predicate = .check .typed := by
  obtain ⟨message, hmessage⟩ := h.typed
  rw [hmessage]
  rfl

private theorem mem_orElse {α : Type} {o p : Option α} {a : α} (h : a ∈ (o <|> p)) :
    a ∈ o ∨ a ∈ p := by
  cases o with
  | none => exact Or.inr h
  | some b => exact Or.inl h

namespace Traits

variable {t left right : Traits} {x y : Test}

theorem mem_addTest (h : x ∈ (t.addTest y).tests) : x ∈ t.tests ∨ x = y := by
  rcases List.mem_append.mp h with hold | hnew
  · exact Or.inl (List.mem_filter.mp hold).1
  · exact Or.inr (List.mem_singleton.mp hnew)

theorem mem_foldl_addTest {added : List Test} (h : x ∈ (added.foldl addTest t).tests) :
    x ∈ t.tests ∨ x ∈ added := by
  induction added generalizing t with
  | nil => exact Or.inl h
  | cons first rest ih =>
      rcases ih h with hfirst | hrest
      · rcases mem_addTest hfirst with hold | rfl
        · exact Or.inl hold
        · exact Or.inr List.mem_cons_self
      · exact Or.inr (List.mem_cons_of_mem _ hrest)

/-- Adding tests leaves the checks of type and lists as they are. -/
theorem foldl_addTest_checks (added : List Test) (t : Traits) :
    (added.foldl addTest t).typeError = t.typeError ∧
      (added.foldl addTest t).allowCheck = t.allowCheck ∧
      (added.foldl addTest t).denyCheck = t.denyCheck := by
  induction added generalizing t with
  | nil => exact ⟨rfl, rfl, rfl⟩
  | cons first rest ih => exact ih (t.addTest first)

/-- Adding tests leaves the lists as they are. -/
theorem foldl_addTest_lists (added : List Test) (t : Traits) :
    (added.foldl addTest t).allow = t.allow ∧ (added.foldl addTest t).deny = t.deny := by
  induction added generalizing t with
  | nil => exact ⟨rfl, rfl⟩
  | cons first rest ih => exact ih (t.addTest first)

theorem foldl_addTest_deps (added : List Test) (t : Traits) :
    (added.foldl addTest t).deps = t.deps := by
  induction added generalizing t with
  | nil => rfl
  | cons first rest ih => exact ih (t.addTest first)

theorem mem_join (h : x ∈ (left.join right).tests) : x ∈ left.tests ∨ x ∈ right.tests := by
  rw [join] at h
  have hmem := mem_foldl_addTest h
  exact hmem

theorem join_checks (left right : Traits) :
    (left.join right).typeError = right.typeError ∧
      (left.join right).allowCheck = (right.allowCheck <|> left.allowCheck) ∧
      (left.join right).denyCheck = (right.denyCheck <|> left.denyCheck) :=
  foldl_addTest_checks right.tests _

theorem join_lists (left right : Traits) :
    (left.join right).allow = left.allow.union right.allow ∧
      (left.join right).deny = left.deny.union right.deny :=
  foldl_addTest_lists right.tests _

theorem join_deps (left right : Traits) : (left.join right).deps = left.deps ++ right.deps :=
  foldl_addTest_deps right.tests _

end Traits

namespace Schema

variable {C : RecipeClass} {s t : Schema}

namespace Regular

theorem fresh {locale : Locale} {kind : Kind Schema}
    (hshape : ∀ shape, kind = .object shape → shape.Ordered)
    (hpick : ∀ pick, kind = .lazy pick → C.pick pick) : (fresh locale kind).Regular C where
  shape := hshape
  pick := hpick
  rules := by simp [Schema.fresh]
  deps := by simp [Schema.fresh]
  predicates := by simp [Schema.fresh]
  tidy := .empty rfl rfl
  typed := ⟨_, rfl⟩
  allowCheck := by simp [Schema.fresh]
  denyCheck := by simp [Schema.fresh]

/-- A node with other traits whose checks are as regular. -/
theorem with_traits (h : s.Regular C) {u : Traits} (hdeps : u.deps = s.traits.deps)
    (hpredicates : ∀ x ∈ u.tests, C.predicate x.predicate) (htidy : u.Tidy)
    (htyped : u.typeError.ChecksType)
    (hallowCheck : ∀ x ∈ u.allowCheck, x.predicate = .check .allowed)
    (hdenyCheck : ∀ x ∈ u.denyCheck, x.predicate = .check .notDenied) :
    ({ s with traits := u } : Schema).Regular C :=
  ⟨h.shape, h.pick, h.rules, hdeps ▸ h.deps, hpredicates, htidy, htyped, hallowCheck, hdenyCheck⟩

/-- Edits keep a node regular. -/
theorem edited (h : s.Regular C) (he : Edited C s t) : t.Regular C := by
  induction he with
  | refl => exact h
  | plain u _ hu ih =>
      refine ih.with_traits hu.deps ?_ (ih.tidy.of_eq hu.tests hu.exclusive) ?_ ?_ ?_
      · exact hu.tests ▸ ih.predicates
      · exact hu.typeError ▸ ih.typed
      · exact hu.allowCheck ▸ ih.allowCheck
      · exact hu.denyCheck ▸ ih.denyCheck
  | addTest _ hx hanchored ih =>
      refine ih.with_traits rfl ?_ (ih.tidy.addTest hanchored) ih.typed ih.allowCheck
        ih.denyCheck
      intro y hy
      rcases Traits.mem_addTest hy with hold | rfl
      · exact ih.predicates y hold
      · exact hx
  | notRequired _ ih =>
      refine ih.with_traits rfl ?_ ih.tidy.dropRequired ih.typed ih.allowCheck ih.denyCheck
      exact fun y hy => ih.predicates y (List.mem_filter.mp hy).1
  | withMessage name message _ ih =>
      refine ih.with_traits rfl ?_ (ih.tidy.withMessage name message) ?_ ?_ ?_
      · intro y hy
        obtain ⟨x, hx, rfl⟩ := List.mem_map.mp hy
        exact (Traits.reword_predicate ..).symm ▸ ih.predicates x hx
      · exact ih.typed.reword name message
      · intro y hy
        obtain ⟨x, hx, rfl⟩ := Option.map_eq_some_iff.mp hy
        exact (Traits.reword_predicate ..).trans (ih.allowCheck x hx)
      · intro y hy
        obtain ⟨x, hx, rfl⟩ := Option.map_eq_some_iff.mp hy
        exact (Traits.reword_predicate ..).trans (ih.denyCheck x hx)
  | setTypeError message _ ih =>
      exact ih.with_traits rfl ih.predicates (ih.tidy.of_eq rfl rfl) (ih.typed.withMessage message)
        ih.allowCheck ih.denyCheck
  | oneOf locale entries _ ih =>
      refine ih.with_traits rfl ih.predicates (ih.tidy.of_eq rfl rfl) ih.typed ?_ ih.denyCheck
      intro y hy
      rcases mem_orElse hy with hold | hnew
      · exact ih.allowCheck y hold
      · exact Option.some.inj hnew ▸ rfl
  | notOneOf locale entries _ ih =>
      refine ih.with_traits rfl ih.predicates (ih.tidy.of_eq rfl rfl) ih.typed ih.allowCheck ?_
      intro y hy
      rcases mem_orElse hy with hold | hnew
      · exact ih.denyCheck y hold
      · exact Option.some.inj hnew ▸ rfl

/-- A node with another kind. -/
theorem setKind (h : s.Regular C) {kind : Kind Schema}
    (hshape : ∀ shape, kind = .object shape → shape.Ordered)
    (hpick : ∀ pick, kind = .lazy pick → C.pick pick) : (s.setKind kind).Regular C :=
  ⟨hshape, hpick, h.rules, h.deps, h.predicates, h.tidy, h.typed, h.allowCheck, h.denyCheck⟩

theorem clearConditions (h : s.Regular C) : s.clearConditions.Regular C :=
  ⟨h.shape, h.pick, by simp [Schema.clearConditions], by simp [Schema.clearConditions],
    h.predicates, h.tidy, h.typed, h.allowCheck, h.denyCheck⟩

/-- A node with one more condition. -/
theorem when (h : s.Regular C) {refs : List Reference} {rule : Rule Schema Recipe Step}
    (hrule : C.rule rule) (ht : s.when refs rule = .ok t) : t.Regular C := by
  rw [Schema.when] at ht
  split at ht
  · exact absurd ht (by simp)
  · cases ht
    refine ⟨h.shape, h.pick, ?_, ?_, h.predicates, h.tidy.of_eq rfl rfl, h.typed, h.allowCheck,
      h.denyCheck⟩
    · intro c hc
      rcases List.mem_append.mp hc with hold | hnew
      · exact h.rules c hold
      · exact List.mem_singleton.mp hnew ▸ hrule
    · intro c hc r hr hsibling
      rcases List.mem_append.mp hc with hold | hnew
      · exact List.mem_append_left _ (h.deps c hold r hr hsibling)
      · cases List.mem_singleton.mp hnew
        exact List.mem_append_right _ (List.mem_filter.mpr ⟨hr, by simp [hsibling]⟩)

end Regular

/-! ## Concatenation -/

theorem nodup_keys_concatFields {left right merged : List (String × Schema)}
    (hl : (Dict.keys left).Nodup) (h : concatFields left right = .ok merged) :
    (Dict.keys merged).Nodup := by
  induction right generalizing left with
  | nil =>
      rw [concatFields] at h
      cases h
      exact hl
  | cons f rest ih =>
      rw [concatFields_cons] at h
      obtain ⟨c, -, hrest⟩ := bind_eq_ok.mp h
      exact ih (Dict.nodup_keys_put hl) hrest

/-- What a concatenation is made of. -/
theorem concat_eq {a b c : Schema} (h : a.concat b = .ok c) :
    ∃ kind, concatKind a.kind b.kind = .ok kind ∧
      c = ⟨kind, a.conditions ++ b.conditions, a.traits.join b.traits⟩ := by
  obtain ⟨kind, conditions, traits⟩ := b
  rw [Schema.concat] at h
  split at h
  · obtain ⟨merged, hmerged, hc⟩ := bind_eq_ok.mp h
    cases hc
    exact ⟨merged, hmerged, rfl⟩
  · exact absurd h (by simp)

/-- The kind of a concatenation is that of a side, or both are of one kind. -/
theorem concatKind_cases {left right kind : Kind Schema} (h : concatKind left right = .ok kind) :
    kind = left ∨ kind = right ∨
      (∃ l fields excluded shape, left = .object l ∧ Shape.sorted fields excluded = .ok shape ∧
        (∃ added, concatFields l.fields added = .ok fields) ∧ kind = .object shape) ∨
      ∃ element, kind = .array element := by
  cases right with
  | mixed =>
      rw [concatKind.eq_def] at h
      cases h
      exact Or.inl rfl
  | object r =>
      rw [concatKind.eq_def] at h
      dsimp only at h
      split at h
      · next l =>
          obtain ⟨fields, hfields, h⟩ := bind_eq_ok.mp h
          obtain ⟨shape, hshape, h⟩ := bind_eq_ok.mp h
          cases h
          exact Or.inr (Or.inr (Or.inl ⟨l, fields, _, shape, rfl, hshape, ⟨_, hfields⟩, rfl⟩))
      · cases h
        exact Or.inr (Or.inl rfl)
  | array element =>
      rw [concatKind.eq_def] at h
      dsimp only at h
      split at h
      · obtain ⟨merged, -, h⟩ := bind_eq_ok.mp h
        cases h
        exact Or.inr (Or.inr (Or.inr ⟨merged, rfl⟩))
      · cases h
        exact Or.inr (Or.inl rfl)
  | string | number | boolean | lazy =>
      rw [concatKind.eq_def] at h
      cases h
      exact Or.inr (Or.inl rfl)

/-- Concatenations of regular nodes are regular. -/
theorem Regular.concat : ConcatKeeps (Regular C) := by
  intro a b c ha hb h
  obtain ⟨kind, hkind, rfl⟩ := concat_eq h
  obtain ⟨htype, hallow, hdeny⟩ := Traits.join_checks a.traits b.traits
  constructor
  case shape =>
    intro shape heq
    rcases concatKind_cases hkind with rfl | rfl | ⟨l, fields, excluded, shape', hl, hsorted,
      ⟨added, hadded⟩, rfl⟩ | ⟨element, rfl⟩
    · exact ha.shape shape heq
    · exact hb.shape shape heq
    · cases heq
      exact .of_sorted (nodup_keys_concatFields (ha.shape l hl).keys hadded) hsorted
    · exact absurd heq (by simp)
  case pick =>
    intro pick heq
    rcases concatKind_cases hkind with rfl | rfl | ⟨l, fields, excluded, shape', hl, hsorted,
      hadded, rfl⟩ | ⟨element, rfl⟩
    · exact ha.pick pick heq
    · exact hb.pick pick heq
    · exact absurd heq (by simp)
    · exact absurd heq (by simp)
  case rules =>
    intro c hc
    rcases List.mem_append.mp hc with hleft | hright
    · exact ha.rules c hleft
    · exact hb.rules c hright
  case deps =>
    intro c hc r hr hsibling
    rw [Traits.join_deps]
    rcases List.mem_append.mp hc with hleft | hright
    · exact List.mem_append_left _ (ha.deps c hleft r hr hsibling)
    · exact List.mem_append_right _ (hb.deps c hright r hr hsibling)
  case predicates =>
    intro x hx
    rcases Traits.mem_join hx with hleft | hright
    · exact ha.predicates x hleft
    · exact hb.predicates x hright
  case tidy => exact ha.tidy.join hb.tidy
  case typed => exact htype ▸ hb.typed
  case allowCheck =>
    intro x hx
    rcases mem_orElse (hallow ▸ hx) with hright | hleft
    · exact hb.allowCheck x hright
    · exact ha.allowCheck x hleft
  case denyCheck =>
    intro x hx
    rcases mem_orElse (hdeny ▸ hx) with hright | hleft
    · exact hb.denyCheck x hright
    · exact ha.denyCheck x hleft

end Schema

end Conform
