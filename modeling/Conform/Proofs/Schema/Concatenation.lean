/-
  Conform.Proofs.Schema.Concatenation

  When two schemas can be concatenated, and what comes out. A concatenation goes down
  in both schemas at once, through the fields that two objects share and through the
  elements of two arrays. It fails exactly if somewhere on the way it comes to two
  kinds that do not go together, or to two objects whose fields together have no order;
  otherwise every place that it comes to holds the concatenation of the two schemas
  there, with the fields of the left one before the new ones of the right one.
-/

import Conform.Proofs.Dependency.Topological
import Conform.Proofs.Schema.Obtained

namespace Conform

theorem Shape.dependsOn_iff {fields : List (String × Schema)}
    {excluded : List (String × String)} {key dep : String} :
    DependsOn fields excluded key dep ↔
      (∃ f ∈ fields, f.1 = key ∧ f.2.DependsOn dep) ∧ (key, dep) ∉ excluded := by
  rw [DependsOn]
  constructor
  · rintro ⟨f, hf, hkey, hdep, hexcluded⟩
    exact ⟨⟨f, hf, hkey, hdep⟩, hexcluded⟩
  · rintro ⟨⟨f, hf, hkey, hdep⟩, hexcluded⟩
    exact ⟨f, hf, hkey, hdep, hexcluded⟩

-- ============================================================================
-- Places
-- ============================================================================

/-- A turn on the way down in a schema. -/
inductive Turn where
  | field (key : String)
  | element

namespace Schema

variable {a b c s t : Schema} {turn : Turn} {path : List Turn}

/-- The fields that a schema declares. Only objects have any. -/
def declared (s : Schema) : List (String × Schema) := s.fields?.getD []

/-- The schema behind a turn. -/
def child? (s : Schema) : Turn → Option Schema
  | .field key => Dict.get? s.declared key
  | .element => s.element?

/-- The schema at the end of a way down. -/
def at? (s : Schema) : List Turn → Option Schema
  | [] => some s
  | turn :: rest => (s.child? turn).bind fun t => at? t rest

theorem at?_cons (h : s.child? turn = some t) : s.at? (turn :: path) = t.at? path := by
  rw [at?, h]
  rfl

theorem declared_object {shape : Shape Schema} (h : s.kind = .object shape) :
    s.declared = shape.fields := by
  rw [declared, fields?, h]
  rfl

theorem declared_of_ne (h : ∀ shape, s.kind ≠ .object shape) : s.declared = [] := by
  rw [declared, fields?]
  split
  · next shape hkind => exact absurd hkind (h shape)
  · rfl

/-- Fields are found only where there is an object. -/
theorem object_of_field {key : String} (h : s.child? (.field key) = some t) :
    ∃ shape, s.kind = .object shape ∧ Dict.get? shape.fields key = some t := by
  rw [child?] at h
  by_cases hobject : ∃ shape, s.kind = .object shape
  · obtain ⟨shape, hkind⟩ := hobject
    exact ⟨shape, hkind, declared_object hkind ▸ h⟩
  · rw [declared_of_ne fun shape hkind => hobject ⟨shape, hkind⟩] at h
    exact absurd h (by simp [Dict.get?_nil])

theorem nested_of_child? (h : s.child? turn = some t) : Nested t s := by
  cases turn with
  | field key =>
      obtain ⟨shape, hkind, hlookup⟩ := object_of_field h
      exact .field hkind (Dict.mem_of_get? hlookup)
  | element => exact nested_of_element? h

/-- What stands directly inside a schema stands behind a turn, or in a branch of one of
    the conditions. -/
theorem child?_of_nested {C : RecipeClass} (hs : s.Regular C) (h : Nested t s) :
    (∃ turn, s.child? turn = some t) ∨ ∃ d ∈ s.conditions, t ∈ d.rule.joined := by
  cases h with
  | @field _ _ f hkind hf =>
      refine Or.inl ⟨.field f.1, ?_⟩
      rw [child?, declared_object hkind]
      exact Dict.get?_of_mem (hs.shape _ hkind).keys hf
  | element hkind => exact Or.inl ⟨.element, element?_eq_some.mpr hkind⟩
  | branch hd ht => exact Or.inr ⟨_, hd, ht⟩

theorem Everywhere.at? {N : Schema → Prop} (h : s.Everywhere N) (ht : s.at? path = some t) :
    t.Everywhere N := by
  induction path generalizing s with
  | nil =>
      cases ht
      exact h
  | cons turn rest ih =>
      obtain ⟨u, hu, ht⟩ := Option.bind_eq_some_iff.mp ht
      exact ih (h.nested (nested_of_child? hu)) ht

-- ============================================================================
-- Fields
-- ============================================================================

/-- What stands under a key behind a concatenation of fields: the concatenation of what
    stood on both sides, or what stood on one of them. -/
def Laid : Option Schema → Option Schema → Option Schema → Prop
  | some x, some y, z => ∃ c, x.concat y = .ok c ∧ z = some c
  | some x, none, z => z = some x
  | none, y, z => z = y

variable {left right merged : List (String × Schema)}

/-- Fields that are concatenated stand under the keys that they had. -/
theorem get?_concatFields (hkeys : (Dict.keys right).Nodup)
    (h : concatFields left right = .ok merged) (key : String) :
    Laid (Dict.get? left key) (Dict.get? right key) (Dict.get? merged key) := by
  induction right generalizing left with
  | nil =>
      rw [concatFields] at h
      cases h
      cases Dict.get? merged key with
      | none => rfl
      | some x => rfl
  | cons f rest ih =>
      obtain ⟨k, s⟩ := f
      obtain ⟨hfirst, hrest⟩ := List.nodup_cons.mp hkeys
      rw [concatFields_cons] at h
      obtain ⟨c, hc, h⟩ := bind_eq_ok.mp h
      have hlater := ih hrest h
      rw [Dict.get?_cons]
      by_cases heq : key = k
      · -- the key comes but once, so it stays as it is put here
        subst heq
        rw [Dict.get?_eq_none_of_not_mem hfirst, Dict.get?_put_self] at hlater
        rw [if_pos rfl, hlater]
        rw [Dict.get?]
        split at hc
        · next l hl =>
            rw [hl]
            exact ⟨c, hc, rfl⟩
        · next hl =>
            cases hc
            rw [hl]
            rfl
      · rw [if_neg heq]
        rwa [Dict.get?_put_of_ne left c heq] at hlater

/-- The keys of fields that are concatenated: those of the left side, and behind them the
    new ones of the right side. -/
theorem keys_concatFields (hkeys : (Dict.keys right).Nodup)
    (h : concatFields left right = .ok merged) :
    Dict.keys merged =
      Dict.keys left ++ (Dict.keys right).filter fun key => key ∉ Dict.keys left := by
  induction right generalizing left with
  | nil =>
      rw [concatFields] at h
      cases h
      exact (List.append_nil _).symm
  | cons f rest ih =>
      obtain ⟨k, s⟩ := f
      obtain ⟨hfirst, hrest⟩ := List.nodup_cons.mp hkeys
      rw [concatFields_cons] at h
      obtain ⟨c, -, h⟩ := bind_eq_ok.mp h
      have hfirst : k ∉ Dict.keys rest := hfirst
      rw [ih hrest h]
      show _ = Dict.keys left ++ (k :: Dict.keys rest).filter _
      by_cases hmem : k ∈ Dict.keys left
      · rw [Dict.keys_put_of_mem hmem, List.filter_cons_of_neg (by simpa using hmem)]
      · rw [Dict.keys_put_of_not_mem hmem, List.filter_cons_of_pos (by simpa using hmem),
          List.append_assoc, List.singleton_append]
        congr 2
        refine List.filter_congr fun key hkey => ?_
        have hne : key ≠ k := fun heq => hfirst (heq ▸ hkey)
        simp [hne]

/-- Fields cannot be concatenated exactly if those of one key cannot. -/
theorem concatFields_eq_error (hkeys : (Dict.keys right).Nodup) {e : Failure}
    (h : concatFields left right = .error e) :
    ∃ key x y, Dict.get? left key = some x ∧ Dict.get? right key = some y ∧
      x.concat y = .error e := by
  induction right generalizing left with
  | nil =>
      rw [concatFields] at h
      exact absurd h (by simp)
  | cons f rest ih =>
      obtain ⟨k, s⟩ := f
      obtain ⟨hfirst, hrest⟩ := List.nodup_cons.mp hkeys
      rw [concatFields_cons] at h
      rcases bind_eq_error.mp h with hc | ⟨c, -, h⟩
      · split at hc
        · next l hl => exact ⟨k, l, s, hl, by simp [Dict.get?_cons], hc⟩
        · exact absurd hc (by simp)
      · obtain ⟨key, x, y, hx, hy, herror⟩ := ih hrest h
        have hne : key ≠ k := by
          rintro rfl
          rw [Dict.get?_eq_none_of_not_mem hfirst] at hy
          exact absurd hy (by simp)
        rw [Dict.get?_put_of_ne left c hne] at hx
        exact ⟨key, x, y, hx, by rw [Dict.get?_cons, if_neg hne, hy], herror⟩

-- ============================================================================
-- Order of the fields
-- ============================================================================

/-- A concatenation depends on what either side depends on. -/
theorem dependsOn_concat (h : a.concat b = .ok c) (dep : String) :
    c.DependsOn dep ↔ a.DependsOn dep ∨ b.DependsOn dep := by
  obtain ⟨kind, -, rfl⟩ := concat_eq h
  simp only [DependsOn, Traits.join_deps, List.mem_append, or_and_right, exists_or]

/-- Fields of different keys depend on what the field of the key depends on. -/
theorem exists_dependsOn_iff {fields : List (String × Schema)} (hkeys : (Dict.keys fields).Nodup)
    (key dep : String) :
    (∃ f ∈ fields, f.1 = key ∧ f.2.DependsOn dep) ↔
      ∃ s, Dict.get? fields key = some s ∧ s.DependsOn dep := by
  constructor
  · rintro ⟨f, hf, rfl, hdep⟩
    exact ⟨f.2, Dict.get?_of_mem hkeys hf, hdep⟩
  · rintro ⟨s, hs, hdep⟩
    exact ⟨(key, s), Dict.mem_of_get? hs, rfl, hdep⟩

theorem Laid.dependsOn_iff {x y z : Option Schema} (h : Laid x y z) (dep : String) :
    (∃ s, z = some s ∧ s.DependsOn dep) ↔
      (∃ s, x = some s ∧ s.DependsOn dep) ∨ ∃ s, y = some s ∧ s.DependsOn dep := by
  cases x with
  | none =>
      have heq : z = y := h
      simp [heq]
  | some l =>
      cases y with
      | none =>
          have heq : z = some l := h
          simp [heq]
      | some r =>
          obtain ⟨c, hc, rfl⟩ := h
          simp [dependsOn_concat hc]

/-- Fields that are concatenated depend on what the fields of either side depend on. -/
theorem dependsOn_concatFields (hleft : (Dict.keys left).Nodup) (hright : (Dict.keys right).Nodup)
    (h : concatFields left right = .ok merged) (excluded : List (String × String)) :
    Shape.DependsOn merged excluded = Shape.DependsOn (left ++ right) excluded := by
  have hmerged := nodup_keys_concatFields hleft h
  have hsides : ∀ key dep, (∃ f ∈ merged, f.1 = key ∧ f.2.DependsOn dep) ↔
      ∃ f ∈ left ++ right, f.1 = key ∧ f.2.DependsOn dep := by
    intro key dep
    have hlaid := (get?_concatFields hright h key).dependsOn_iff dep
    rw [← exists_dependsOn_iff hmerged, ← exists_dependsOn_iff hleft,
      ← exists_dependsOn_iff hright] at hlaid
    simp only [hlaid, List.mem_append, or_and_right, exists_or]
  funext key dep
  apply propext
  rw [Shape.dependsOn_iff, Shape.dependsOn_iff, hsides]

-- ============================================================================
-- One level
-- ============================================================================

/-- Why two schemas cannot be concatenated, whatever is inside them: their kinds do not
    go together, or they are objects, and a name depends on itself by way of the fields
    of both. -/
inductive Clashes (a b : Schema) : Failure → Prop where
  | kinds : a.tag ≠ .mixed → b.tag ≠ .mixed → a.tag ≠ b.tag →
      Clashes a b (.kindMismatch a.tag b.tag)
  | cycle {l r : Shape Schema} {name : String} :
      a.kind = .object l → b.kind = .object r →
      Relation.TransGen (Shape.DependsOn (l.fields ++ r.fields) (l.excluded ++ r.excluded))
        name name →
      Clashes a b (.cyclicDependency name)

/-- A concatenation fails for the kinds, or as the concatenation of the kinds does. -/
theorem concat_eq_error_iff {e : Failure} :
    a.concat b = .error e ↔
      (a.tag.compatible b.tag = false ∧ e = .kindMismatch a.tag b.tag) ∨
        (a.tag.compatible b.tag = true ∧ concatKind a.kind b.kind = .error e) := by
  obtain ⟨kind, conditions, traits⟩ := b
  have htag : Schema.tag ⟨kind, conditions, traits⟩ = kind.tag := rfl
  rw [Schema.concat, htag]
  cases hcompatible : a.tag.compatible kind.tag with
  | false => simp [eq_comm]
  | true =>
      rw [if_pos rfl]
      cases hkind : concatKind a.kind kind with
      | error e' => simp [bind, Except.bind]
      | ok merged => simp [bind, Except.bind, pure, Except.pure]

theorem concat_of_concatKind (hcompatible : a.tag.compatible b.tag = true) {kind : Kind Schema}
    (h : concatKind a.kind b.kind = .ok kind) :
    a.concat b = .ok ⟨kind, a.conditions ++ b.conditions, a.traits.join b.traits⟩ := by
  obtain ⟨right, conditions, traits⟩ := b
  have hcompatible : a.tag.compatible right.tag = true := hcompatible
  rw [Schema.concat, if_pos hcompatible]
  exact bind_eq_ok.mpr ⟨kind, h, rfl⟩

/-- How the kind of a concatenation comes from the kinds of the two sides. -/
inductive KindJoins : Kind Schema → Kind Schema → Kind Schema → Prop where
  | left (kind : Kind Schema) : KindJoins kind .mixed kind
  | right (kind : Kind Schema) : KindJoins .mixed kind kind
  | object {l r m : Shape Schema} : concatFields l.fields r.fields = .ok m.fields →
      Shape.sorted m.fields (l.excluded ++ r.excluded) = .ok m →
      KindJoins (.object l) (.object r) (.object m)
  | array {l r m : Element Schema} : concatElement l r = .ok m →
      KindJoins (.array l) (.array r) (.array m)
  | plain {l r : Kind Schema} : l.tag = r.tag → r.tag ≠ .object → r.tag ≠ .array →
      KindJoins l r r

theorem kindJoins_of_concatKind {left right kind : Kind Schema}
    (hcompatible : left.tag.compatible right.tag = true) (h : concatKind left right = .ok kind) :
    KindJoins left right kind := by
  have hsame : left ≠ .mixed → right ≠ .mixed → left.tag = right.tag := by
    intro hleft hright
    cases left <;> cases right <;> simp_all [KindTag.compatible, Kind.tag]
  by_cases hleft : left = .mixed
  · subst hleft
    have heq : kind = right := by
      cases right <;> rw [concatKind.eq_def] at h <;> cases h <;> rfl
    exact heq ▸ .right right
  rw [concatKind.eq_def] at h
  cases right with
  | mixed =>
      cases h
      exact .left _
  | object r =>
      have htag := hsame hleft (by simp)
      cases left with
      | object l =>
          obtain ⟨fields, hfields, h⟩ := bind_eq_ok.mp h
          obtain ⟨shape, hshape, h⟩ := bind_eq_ok.mp h
          cases h
          have heq := (Shape.fields_of_sorted hshape).1
          exact .object (heq ▸ hfields) (heq ▸ hshape)
      | _ => exact absurd htag (by simp [Kind.tag])
  | array r =>
      have htag := hsame hleft (by simp)
      cases left with
      | array l =>
          obtain ⟨element, helement, h⟩ := bind_eq_ok.mp h
          cases h
          exact .array helement
      | _ => exact absurd htag (by simp [Kind.tag])
  | string | number | boolean | lazy =>
      cases h
      exact .plain (hsame hleft (by simp)) (by simp [Kind.tag]) (by simp [Kind.tag])

theorem kindJoins_of_concat (h : a.concat b = .ok c) : KindJoins a.kind b.kind c.kind := by
  obtain ⟨kind, hkind, rfl⟩ := concat_eq h
  refine kindJoins_of_concatKind ?_ hkind
  cases hcompatible : a.kind.tag.compatible b.kind.tag with
  | true => rfl
  | false =>
      have herror := concat_eq_error_iff.mpr (Or.inl ⟨hcompatible, rfl⟩)
      exact absurd (h.symm.trans herror) (by simp)

/-- Why the kinds of two schemas cannot be concatenated: the fields or the order of two
    objects, or the elements of two arrays. -/
theorem concatKind_eq_error {left right : Kind Schema} {e : Failure}
    (h : concatKind left right = .error e) :
    (∃ l r, left = .object l ∧ right = .object r ∧ (concatFields l.fields r.fields = .error e ∨
      ∃ merged, concatFields l.fields r.fields = .ok merged ∧
        Shape.sorted merged (l.excluded ++ r.excluded) = .error e)) ∨
    ∃ x y, left = .array (.of x) ∧ right = .array (.of y) ∧ x.concat y = .error e := by
  rw [concatKind.eq_def] at h
  cases right with
  | object r =>
      cases left with
      | object l =>
          refine Or.inl ⟨l, r, rfl, rfl, ?_⟩
          rcases bind_eq_error.mp h with hfields | ⟨merged, hmerged, h⟩
          · exact Or.inl hfields
          rcases bind_eq_error.mp h with hsorted | ⟨shape, -, h⟩
          · exact Or.inr ⟨merged, hmerged, hsorted⟩
          · exact absurd h (by simp [pure, Except.pure])
      | _ => exact absurd h (by simp)
  | array r =>
      cases left with
      | array l =>
          rcases bind_eq_error.mp h with helement | ⟨element, -, h⟩
          · rw [concatElement.eq_def] at helement
            cases r with
            | of y =>
                cases l with
                | of x =>
                    rcases bind_eq_error.mp helement with hconcat | ⟨z, -, helement⟩
                    · exact Or.inr ⟨x, y, rfl, rfl, hconcat⟩
                    · exact absurd helement (by simp [pure, Except.pure])
                | _ => exact absurd helement (by simp)
            | _ => exact absurd helement (by simp)
          · exact absurd h (by simp [pure, Except.pure])
      | _ => exact absurd h (by simp)
  | _ => exact absurd h (by simp)

variable {C : RecipeClass} {x y : Schema}

/-- A concatenation that fails does so for what the two schemas are, or inside them. -/
theorem clashes_or_child_of_concat_eq_error (ha : a.Regular C) (hb : b.Regular C) {e : Failure}
    (h : a.concat b = .error e) :
    a.Clashes b e ∨
      ∃ turn x y, a.child? turn = some x ∧ b.child? turn = some y ∧ x.concat y = .error e := by
  rcases concat_eq_error_iff.mp h with ⟨hcompatible, rfl⟩ | ⟨-, hkind⟩
  · simp only [KindTag.compatible, Bool.or_eq_false_iff, beq_eq_false_iff_ne] at hcompatible
    exact Or.inl (.kinds hcompatible.1.1 hcompatible.1.2 hcompatible.2)
  rcases concatKind_eq_error hkind with ⟨l, r, hl, hr, hshape⟩ | ⟨x, y, hx, hy, herror⟩
  · have hright := (hb.shape r hr).keys
    rcases hshape with hfields | ⟨merged, hmerged, hsorted⟩
    · obtain ⟨key, x, y, hx, hy, herror⟩ := concatFields_eq_error hright hfields
      refine Or.inr ⟨.field key, x, y, ?_, ?_, herror⟩
      · rw [child?, declared_object hl, hx]
      · rw [child?, declared_object hr, hy]
    · obtain ⟨name, horder, rfl⟩ := Shape.sorted_eq_error_iff.mp hsorted
      have hcycle := DependencyGraph.cyclic_of_order_eq_error Shape.closed_graph horder
      rw [Shape.dependsOn_graph, dependsOn_concatFields (ha.shape l hl).keys hright hmerged] at hcycle
      exact Or.inl (.cycle hl hr hcycle)
  · exact Or.inr ⟨.element, x, y, element?_eq_some.mpr hx, element?_eq_some.mpr hy, herror⟩

/-- Schemas that can be concatenated do not clash. -/
theorem not_clashes_of_concat (ha : a.Regular C) (hb : b.Regular C) (h : a.concat b = .ok c)
    (e : Failure) : ¬ a.Clashes b e := by
  intro hclash
  have hjoins := kindJoins_of_concat h
  cases hclash with
  | kinds hleft hright hne =>
      have hcompatible : a.tag.compatible b.tag = false := by
        simp [KindTag.compatible, hleft, hright, hne]
      have herror := concat_eq_error_iff.mpr (Or.inl ⟨hcompatible, rfl⟩)
      exact absurd (h.symm.trans herror) (by simp)
  | cycle hl hr hcycle =>
      rw [hl, hr] at hjoins
      generalize c.kind = kind at hjoins
      cases hjoins with
      | object hfields hsorted =>
          have hleft := (ha.shape _ hl).keys
          have hright := (hb.shape _ hr).keys
          rw [← dependsOn_concatFields hleft hright hfields, ← Shape.dependsOn_graph] at hcycle
          exact DependencyGraph.not_cyclic_of_order_eq_ok Shape.closed_graph
            (Shape.order_eq_of_sorted hsorted) hcycle
      | plain _ hobject _ => exact hobject rfl

/-- What two schemas have behind one turn is concatenated behind it. -/
theorem child?_concat (hb : b.Regular C) (h : a.concat b = .ok c) (hx : a.child? turn = some x)
    (hy : b.child? turn = some y) : ∃ z, c.child? turn = some z ∧ x.concat y = .ok z := by
  have hjoins := kindJoins_of_concat h
  cases turn with
  | field key =>
      obtain ⟨l, hl, hx⟩ := object_of_field hx
      obtain ⟨r, hr, hy⟩ := object_of_field hy
      rw [hl, hr] at hjoins
      generalize hkind : c.kind = kind at hjoins
      cases hjoins with
      | object hfields _ =>
          have hlaid := get?_concatFields (hb.shape r hr).keys hfields key
          rw [hx, hy] at hlaid
          obtain ⟨z, hz, hmerged⟩ := hlaid
          exact ⟨z, by rw [child?, declared_object hkind, hmerged], hz⟩
      | plain _ hobject _ => exact absurd rfl hobject
  | element =>
      rw [element?_eq_some.mp hx, element?_eq_some.mp hy] at hjoins
      generalize hkind : c.kind = kind at hjoins
      cases hjoins with
      | array helement =>
          rw [concatElement.eq_def] at helement
          obtain ⟨z, hz, heq⟩ := bind_eq_ok.mp helement
          cases heq
          exact ⟨z, element?_eq_some.mpr hkind, hz⟩
      | plain _ _ harray => exact absurd rfl harray

-- ============================================================================
-- All levels
-- ============================================================================

/-- What is declared behind a concatenation: the fields of the left side under their keys,
    and behind them the new ones of the right side. -/
structure DeclaresBoth (x y z : Schema) : Prop where
  keys : Dict.keys z.declared =
    Dict.keys x.declared ++ (Dict.keys y.declared).filter fun key => key ∉ Dict.keys x.declared
  laid : ∀ key, Laid (Dict.get? x.declared key) (Dict.get? y.declared key) (Dict.get? z.declared key)

theorem declared_congr (h : s.kind = t.kind) : s.declared = t.declared := by
  rw [declared, declared, fields?, fields?, h]

theorem DeclaresBoth.of_left (hb : b.declared = []) (hc : c.declared = a.declared) :
    DeclaresBoth a b c where
  keys := by simp [hb, hc, Dict.keys]
  laid key := by
    rw [hb, hc]
    cases Dict.get? a.declared key with
    | none => rfl
    | some x => rfl

theorem DeclaresBoth.of_right (ha : a.declared = []) (hc : c.declared = b.declared) :
    DeclaresBoth a b c where
  keys := by simp [ha, hc, Dict.keys]
  laid key := by
    rw [ha, hc]
    rfl

/-- A concatenation declares the fields of both sides; it is an object if one of them is. -/
theorem declaresBoth_of_concat (hb : b.Regular C) (h : a.concat b = .ok c) :
    DeclaresBoth a b c ∧ (c.tag = .object ↔ a.tag = .object ∨ b.tag = .object) := by
  have hjoins := kindJoins_of_concat h
  generalize ha' : a.kind = left at hjoins
  generalize hb' : b.kind = right at hjoins
  generalize hc' : c.kind = kind at hjoins
  simp only [tag, ha', hb', hc']
  cases hjoins with
  | left =>
      have hnone : b.declared = [] := declared_of_ne (by simp [hb'])
      exact ⟨.of_left hnone (declared_congr (hc'.trans ha'.symm)), by simp [Kind.tag]⟩
  | right =>
      have hnone : a.declared = [] := declared_of_ne (by simp [ha'])
      exact ⟨.of_right hnone (declared_congr (hc'.trans hb'.symm)), by simp [Kind.tag]⟩
  | @object l r m hfields _ =>
      have hright := (hb.shape r hb').keys
      refine ⟨⟨?_, fun key => ?_⟩, by simp [Kind.tag]⟩
      · rw [declared_object ha', declared_object hb', declared_object hc']
        exact keys_concatFields hright hfields
      · rw [declared_object ha', declared_object hb', declared_object hc']
        exact get?_concatFields hright hfields key
  | array =>
      have hleft : a.declared = [] := declared_of_ne (by simp [ha'])
      have hright : c.declared = b.declared := by
        rw [declared_of_ne (by simp [hc']), declared_of_ne (by simp [hb'])]
      exact ⟨.of_right hleft hright, by simp [Kind.tag]⟩
  | plain htag hobject _ =>
      have hleft : a.declared = [] := by
        refine declared_of_ne fun shape hshape => hobject ?_
        rw [← htag, ← ha', hshape]
        rfl
      exact ⟨.of_right hleft (declared_congr (hc'.trans hb'.symm)), by simp [htag]⟩

/-- Element schemas of a concatenation are those of a side, or concatenated. -/
theorem concatElement_cases {l r m : Element Schema} (h : concatElement l r = .ok m) :
    m = l ∨ m = r ∨ ∃ x y z, l = .of x ∧ r = .of y ∧ x.concat y = .ok z ∧ m = .of z := by
  rw [concatElement.eq_def] at h
  cases r with
  | unset =>
      cases h
      exact Or.inl rfl
  | disabled =>
      cases h
      exact Or.inr (Or.inl rfl)
  | of y =>
      cases l with
      | of x =>
          obtain ⟨z, hz, h⟩ := bind_eq_ok.mp h
          cases h
          exact Or.inr (Or.inr ⟨x, y, z, rfl, rfl, hz, rfl⟩)
      | unset | disabled =>
          cases h
          exact Or.inr (Or.inl rfl)

/-- What a concatenation has behind a turn is what a side has there, or the concatenation
    of what both have. -/
theorem child?_of_concat (hb : b.Regular C) (h : a.concat b = .ok c) {z : Schema}
    (hz : c.child? turn = some z) :
    a.child? turn = some z ∨ b.child? turn = some z ∨
      ∃ x y, a.child? turn = some x ∧ b.child? turn = some y ∧ x.concat y = .ok z := by
  cases turn with
  | field key =>
      have hlaid := (declaresBoth_of_concat hb h).1.laid key
      simp only [child?] at hz ⊢
      rw [hz] at hlaid
      generalize Dict.get? a.declared key = left at hlaid
      generalize Dict.get? b.declared key = right at hlaid
      cases left with
      | none => exact Or.inr (Or.inl (Eq.symm hlaid))
      | some x =>
          cases right with
          | none => exact Or.inl (Eq.symm hlaid)
          | some y =>
              obtain ⟨z', hconcat, heq⟩ := hlaid
              cases heq
              exact Or.inr (Or.inr ⟨x, y, rfl, rfl, hconcat⟩)
  | element =>
      have hkind := element?_eq_some.mp hz
      have hjoins := kindJoins_of_concat h
      simp only [child?, element?_eq_some]
      rw [hkind] at hjoins
      generalize a.kind = left at hjoins
      generalize b.kind = right at hjoins
      cases hjoins with
      | left => exact Or.inl rfl
      | right => exact Or.inr (Or.inl rfl)
      | plain => exact Or.inr (Or.inl rfl)
      | array helement =>
          rcases concatElement_cases helement with rfl | rfl | ⟨x, y, z', rfl, rfl, hconcat, heq⟩
          · exact Or.inl rfl
          · exact Or.inr (Or.inl rfl)
          · cases heq
            exact Or.inr (Or.inr ⟨x, y, rfl, rfl, hconcat⟩)

/-- Every place that two schemas have in common holds the concatenation of what they have
    there. -/
theorem at?_concat (hb : b.WellMade C) (h : a.concat b = .ok c) (hx : a.at? path = some x)
    (hy : b.at? path = some y) : ∃ z, c.at? path = some z ∧ x.concat y = .ok z := by
  induction path generalizing a b c with
  | nil =>
      cases hx
      cases hy
      exact ⟨c, rfl, h⟩
  | cons turn rest ih =>
      obtain ⟨u, hu, hx⟩ := Option.bind_eq_some_iff.mp hx
      obtain ⟨v, hv, hy⟩ := Option.bind_eq_some_iff.mp hy
      obtain ⟨t, ht, hconcat⟩ := child?_concat hb.here h hu hv
      obtain ⟨z, hz, hxy⟩ := ih (hb.nested (nested_of_child? hv)) hconcat hx hy
      exact ⟨z, (at?_cons ht).trans hz, hxy⟩

/-- A property of nodes that concatenation keeps of schemas in a relation is handed on to
    a concatenation if the relation holds at every place that both schemas have. -/
theorem Everywhere.concat_of_places {N : Schema → Prop} {J : Schema → Schema → Prop}
    (hN : ∀ {x y z : Schema}, N x → N y → J x y → x.concat y = .ok z → N z)
    (haMade : a.WellMade C) (hbMade : b.WellMade C) (ha : a.Everywhere N) (hb : b.Everywhere N)
    (hJ : ∀ path x y, a.at? path = some x → b.at? path = some y → J x y)
    (h : a.concat b = .ok c) : c.Everywhere N := by
  induction hheight : b.height using Nat.strongRecOn generalizing a b c with
  | ind n ih =>
      have hc : c.WellMade C := Everywhere.concat Regular.concat haMade hbMade h
      refine .intro (hN ha.here hb.here (hJ [] a b rfl rfl) h) fun z hz => ?_
      rcases child?_of_nested hc.here hz with ⟨turn, hturn⟩ | ⟨d, hd, hbranch⟩
      · rcases child?_of_concat hbMade.here h hturn with hleft | hright | ⟨x, y, hx, hy, hconcat⟩
        · exact ha.nested (nested_of_child? hleft)
        · exact hb.nested (nested_of_child? hright)
        · have hxNested := nested_of_child? hx
          have hyNested := nested_of_child? hy
          have hlt : y.height < n := hheight ▸ hyNested.height_lt
          exact ih y.height hlt (haMade.nested hxNested) (hbMade.nested hyNested)
            (ha.nested hxNested) (hb.nested hyNested)
            (fun path u v hu hv => hJ (turn :: path) u v ((at?_cons hx).trans hu)
              ((at?_cons hy).trans hv)) hconcat rfl
      · obtain ⟨kind, -, rfl⟩ := concat_eq h
        rcases List.mem_append.mp hd with hleft | hright
        · exact ha.nested (.branch hleft hbranch)
        · exact hb.nested (.branch hright hbranch)

/-- A concatenation that fails does so for a clash at a place that both schemas have. -/
theorem exists_clash_of_concat_eq_error (ha : a.WellMade C) (hb : b.WellMade C) {e : Failure}
    (h : a.concat b = .error e) :
    ∃ path x y, a.at? path = some x ∧ b.at? path = some y ∧ x.Clashes y e := by
  induction hheight : b.height using Nat.strongRecOn generalizing a b with
  | ind n ih =>
      rcases clashes_or_child_of_concat_eq_error ha.here hb.here h with
        hclash | ⟨turn, u, v, hu, hv, herror⟩
      · exact ⟨[], a, b, rfl, rfl, hclash⟩
      · have hlt : v.height < n := hheight ▸ (nested_of_child? hv).height_lt
        obtain ⟨path, x, y, hx, hy, hclash⟩ := ih v.height hlt (ha.nested (nested_of_child? hu))
          (hb.nested (nested_of_child? hv)) herror rfl
        exact ⟨turn :: path, x, y, (at?_cons hu).trans hx, (at?_cons hv).trans hy, hclash⟩

/-- A concatenation fails exactly if at some place that both schemas have, through fields
    that objects share and through elements of arrays, the two kinds are not mixed and
    differ, or the fields of two objects together have a cycle that neither excludes; the
    failure is that of such a place. If it succeeds, every such place holds the
    concatenation of what the two schemas have there, an object if one of them is, with
    the fields of the left one and behind them the new ones of the right one. -/
theorem concat_fails_iff_clash (ha : a.Obtained) (hb : b.Obtained) :
    ((∃ e, a.concat b = .error e) ↔
      ∃ path x y e, a.at? path = some x ∧ b.at? path = some y ∧ x.Clashes y e) ∧
    (∀ e, a.concat b = .error e →
      ∃ path x y, a.at? path = some x ∧ b.at? path = some y ∧ x.Clashes y e) ∧
    ∀ c, a.concat b = .ok c → ∀ path x y, a.at? path = some x → b.at? path = some y →
      ∃ z, c.at? path = some z ∧ x.concat y = .ok z ∧ DeclaresBoth x y z ∧
        (z.tag = .object ↔ x.tag = .object ∨ y.tag = .object) := by
  have ha := ha.wellMade
  have hb := hb.wellMade
  refine ⟨⟨?_, ?_⟩, fun e => exists_clash_of_concat_eq_error ha hb, ?_⟩
  · rintro ⟨e, he⟩
    obtain ⟨path, x, y, hx, hy, hclash⟩ := exists_clash_of_concat_eq_error ha hb he
    exact ⟨path, x, y, e, hx, hy, hclash⟩
  · rintro ⟨path, x, y, e, hx, hy, hclash⟩
    cases hconcat : a.concat b with
    | error e' => exact ⟨e', rfl⟩
    | ok c =>
        obtain ⟨z, -, hxy⟩ := at?_concat hb hconcat hx hy
        exact absurd hclash (not_clashes_of_concat (ha.at? hx).here (hb.at? hy).here hxy e)
  · intro c hc path x y hx hy
    obtain ⟨z, hz, hxy⟩ := at?_concat hb hc hx hy
    obtain ⟨hdeclares, htag⟩ := declaresBoth_of_concat (hb.at? hy).here hxy
    exact ⟨z, hz, hxy, hdeclares, htag⟩

/-- An array of objects with one field, which reads another one. -/
def itemsReading (key other : String) (excluded : List (String × String)) : Recipe :=
  .make .array [.element (.make .object [.shape [(key, Shape.reading [other])] excluded])]

/-- Two fields that read each other do not go together in the items of one array, unless
    one of the sides excludes its edge. -/
theorem concat_fails_iff_clash_items :
    ∃ a b d, Workshop.initial.build none (itemsReading "a" "b" []) = .ok a ∧
      Workshop.initial.build none (itemsReading "b" "a" []) = .ok b ∧
      Workshop.initial.build none (itemsReading "b" "a" [("b", "a")]) = .ok d ∧
      (∃ e, a.concat b = .error e) ∧
      ∃ c z, a.concat d = .ok c ∧ c.at? [.element] = some z ∧ Dict.keys z.declared = ["a", "b"] := by
  obtain ⟨a, b, d, x, y, u, f, g, ha, hb, hd, hakind, hbkind, hdkind, hx, hy, hu, hsorted,
    hf, hg⟩ :
      ∃ a b d x y u f g, Workshop.initial.build none (itemsReading "a" "b" []) = .ok a ∧
        Workshop.initial.build none (itemsReading "b" "a" []) = .ok b ∧
        Workshop.initial.build none (itemsReading "b" "a" [("b", "a")]) = .ok d ∧
        a.kind = .array (.of x) ∧ b.kind = .array (.of y) ∧ d.kind = .array (.of u) ∧
        x.kind = .object ⟨[("a", f)], ["b", "a"], []⟩ ∧
        y.kind = .object ⟨[("b", g)], ["a", "b"], []⟩ ∧
        u.kind = .object ⟨[("b", g)], ["b", "a"], [("b", "a")]⟩ ∧
        Shape.sorted [("a", f), ("b", g)] [("b", "a")] =
          .ok ⟨[("a", f), ("b", g)], ["b", "a"], [("b", "a")]⟩ ∧
        f.DependsOn "b" ∧ g.DependsOn "a" :=
    ⟨_, _, _, _, _, _, _, _, rfl, rfl, rfl, rfl, rfl, rfl, rfl, rfl, rfl, rfl,
      ⟨_, List.mem_cons_self, rfl, rfl⟩, ⟨_, List.mem_cons_self, rfl, rfl⟩⟩
  have haObtained : a.Obtained := .built Obtained.stored_initial ha
  have hbObtained : b.Obtained := .built Obtained.stored_initial hb
  have hdObtained : d.Obtained := .built Obtained.stored_initial hd
  have hax : a.at? [.element] = some x := by
    rw [at?, child?, element?_eq_some.mpr hakind]
    rfl
  have hby : b.at? [.element] = some y := by
    rw [at?, child?, element?_eq_some.mpr hbkind]
    rfl
  have hdu : d.at? [.element] = some u := by
    rw [at?, child?, element?_eq_some.mpr hdkind]
    rfl
  refine ⟨a, b, d, ha, hb, hd, ?_, ?_⟩
  · obtain ⟨hiff, -, -⟩ := concat_fails_iff_clash haObtained hbObtained
    have hab : Shape.DependsOn [("a", f), ("b", g)] [] "a" "b" :=
      ⟨("a", f), by simp, rfl, hf, by simp⟩
    have hba : Shape.DependsOn [("a", f), ("b", g)] [] "b" "a" :=
      ⟨("b", g), by simp, rfl, hg, by simp⟩
    exact hiff.mpr ⟨[.element], x, y, _, hax, hby,
      .cycle hx hy (.tail (.single hab) hba)⟩
  · obtain ⟨-, -, hplaces⟩ := concat_fails_iff_clash haObtained hdObtained
    have hfields : concatFields [("a", f)] [("b", g)] = .ok [("a", f), ("b", g)] := by
      rw [concatFields_cons]
      exact concatFields.eq_1 _
    have hitem : ∃ t, x.concat u = .ok t := by
      have hkind : concatKind x.kind u.kind =
          .ok (.object ⟨[("a", f), ("b", g)], ["b", "a"], [("b", "a")]⟩) := by
        rw [hx, hu, concatKind.eq_def]
        exact bind_eq_ok.mpr ⟨_, hfields, bind_eq_ok.mpr ⟨_, hsorted, rfl⟩⟩
      exact ⟨_, concat_of_concatKind (by rw [tag, tag, hx, hu]; rfl) hkind⟩
    have harray : ∃ c, a.concat d = .ok c := by
      obtain ⟨t, ht⟩ := hitem
      have hkind : concatKind a.kind d.kind = .ok (.array (.of t)) := by
        rw [hakind, hdkind, concatKind.eq_def]
        refine bind_eq_ok.mpr ⟨.of t, ?_, rfl⟩
        rw [concatElement.eq_def]
        exact bind_eq_ok.mpr ⟨t, ht, rfl⟩
      exact ⟨_, concat_of_concatKind (by rw [tag, tag, hakind, hdkind]; rfl) hkind⟩
    obtain ⟨c, hc⟩ := harray
    obtain ⟨z, hz, -, hdeclares, -⟩ := hplaces c hc _ x u hax hdu
    refine ⟨c, z, hc, hz, ?_⟩
    rw [hdeclares.keys, declared_object hx, declared_object hu]
    rfl

end Schema

end Conform
