/-
  Conform.Proofs.Schema.SiblingFields

  The field that a sibling reference names. A name is read as a path of one step, so the
  reference reads one field of the enclosing object, and a schema with a condition on it
  depends on that field. It is the field that is spelled like the name, unless the name is
  a numeral with zeros in front: that is read as a position, and comes to the field whose
  key is the number without the zeros.
-/

import Conform.Proofs.Dependency.Topological
import Conform.Proofs.Path.Spelling
import Conform.Proofs.Schema.Keeping
import Conform.Proofs.Validation.ItemConditions

namespace Conform

variable {key : String}

namespace Path

-- ============================================================================
-- Names
-- ============================================================================

/-- The key that a name comes to when it is read as a step. -/
def readKey (name : String) : String := (bareSegment name.toList).asKey

theorem Name.parse_eq (h : Name key) : parse key = [bareSegment key.toList] :=
  (reads_name h).parse

theorem Name.firstKey?_eq (h : Name key) : firstKey? key = some (readKey key) := by
  rw [firstKey?, h.parse_eq]
  rfl

/-- A name finds in an object the field of the key that it is read as. -/
theorem Name.get?_obj (h : Name key) (fields : Dict Value) :
    get? (.obj fields) (parse key) = Dict.get? fields (readKey key) := by
  rw [h.parse_eq]
  rfl

/-- A name is read as the key that it spells unless it is a numeral with zeros in front. -/
theorem Name.readKey_eq_iff (h : Name key) : readKey key = key ↔ ¬ ZeroPadded key := by
  rw [← h.spelledKey_iff]
  exact ⟨fun hread => ⟨h, hread⟩, SpelledKey.asRead⟩

end Path

-- ============================================================================
-- Sibling references
-- ============================================================================

/-- Whether a text names a sibling: it is a name, and not that of something in the
    context. -/
structure Reference.SiblingName (key : String) : Prop extends Path.Name key where
  noPrefix : key.toList.head? ≠ some '$'

instance (key : String) : Decidable (Reference.SiblingName key) :=
  decidable_of_iff (Path.Name key ∧ key.toList.head? ≠ some '$')
    ⟨fun h => ⟨h.1, h.2⟩, fun h => ⟨h.toName, h.noPrefix⟩⟩

namespace Reference.SiblingName

theorem ofKey_eq (h : SiblingName key) :
    ofKey key = { key, contextPrefix := "$", path := key, isContext := false, map := none } := by
  have htrim : trimText key = key := by rw [trimText, h.trimmed, String.ofList_toList]
  have hsibling : ['$'].isPrefixOf key.toList = false := by
    cases hkey : key.toList with
    | nil => rfl
    | cons c rest =>
        have hc : ('$' == c) = false :=
          beq_eq_false_iff_ne.mpr fun heq => h.noPrefix (by rw [hkey, ← heq]; rfl)
        rw [List.isPrefixOf, hc]
        rfl
  have hprefix : (if defaultPrefix.isEmpty then defaultPrefix else defaultPrefix) = "$" := rfl
  rw [ofKey, withPrefix]
  simp only [htrim, hprefix, show "$".toList = ['$'] from rfl, hsibling, Bool.false_eq_true,
    if_false]

theorem steps_eq (h : SiblingName key) : (ofKey key).steps = Path.parse key := by
  have hself : (ofKey key).isSelf = false := by
    rw [h.ofKey_eq, isSelf, beq_eq_false_iff_ne]
    rintro rfl
    exact h.noPoint (by decide)
  rw [steps, hself, h.ofKey_eq]
  rfl

/-- A sibling reference by a name reads one field of the enclosing object. -/
theorem value_eq (h : SiblingName key) (fields : Dict Value) (context : Option Value) :
    (ofKey key).value (some (.obj fields)) context = Dict.get? fields (Path.readKey key) := by
  have hsibling : (ofKey key).isContext = false := by rw [h.ofKey_eq]
  have hmap : (ofKey key).map = none := by rw [h.ofKey_eq]
  rw [value_sibling hsibling, mapped, hmap, h.steps_eq, h.toName.get?_obj]

/-- A condition on a name adds one dependency. -/
theorem dependsOn_when (h : SiblingName key) {s t : Schema} {rule : Rule Schema Recipe Step}
    (ht : s.when [ofKey key] rule = .ok t) (dep : String) :
    t.DependsOn dep ↔ s.DependsOn dep ∨ dep = Path.readKey key := by
  obtain ⟨-, -, htraits⟩ := Schema.when_eq_ok ht
  have hsibling : (ofKey key).isContext = false := by rw [h.ofKey_eq]
  have hpath : (ofKey key).path = key := by rw [h.ofKey_eq]
  have hdeps : t.traits.deps = s.traits.deps ++ [ofKey key] := by simp [htraits, hsibling]
  rw [← Shape.mem_dependenciesOf, ← Shape.mem_dependenciesOf, Shape.dependenciesOf, hdeps,
    List.filterMap_append, List.mem_append, ← Shape.dependenciesOf]
  refine or_congr_right ?_
  simp [dependency?, hsibling, hpath, h.toName.firstKey?_eq]

end Reference.SiblingName

namespace Shape

variable {fields : List (String × Schema)} {name : String} {t : Schema}

/-- The edges from a field lead to what its schema depends on, unless they are excluded. -/
theorem dependsOn_graph_of_mem (hkeys : (Dict.keys fields).Nodup) (ht : (name, t) ∈ fields)
    (excluded : List (String × String)) (dep : String) :
    (graph fields excluded).DependsOn name dep ↔ t.DependsOn dep ∧ (name, dep) ∉ excluded := by
  rw [dependsOn_graph]
  constructor
  · rintro ⟨⟨_, u⟩, hu, rfl, hdep, hexcluded⟩
    have hsame : some u = some t :=
      (Dict.get?_of_mem hkeys hu).symm.trans (Dict.get?_of_mem hkeys ht)
    exact ⟨Option.some.inj hsame ▸ hdep, hexcluded⟩
  · rintro ⟨hdep, hexcluded⟩
    exact ⟨(name, t), ht, rfl, hdep, hexcluded⟩

end Shape

-- ============================================================================
-- Fields that are read, and fields that come first
-- ============================================================================

/-- A sibling reference by a name reads the field of one key, whatever the context is, and
    a field with a condition on it is put behind the field of that key, besides those that
    it depended on before. The key is the name itself exactly if the name is no numeral
    with zeros in front. -/
theorem Reference.ofKey_means_field (h : SiblingName key) :
    (∀ (fields : Dict Value) (context : Option Value),
      (ofKey key).value (some (.obj fields)) context = Dict.get? fields (Path.readKey key)) ∧
    (∀ (s t : Schema) (rule : Rule Schema Recipe Step), s.when [ofKey key] rule = .ok t →
      ∀ (fields : List (String × Schema)) (excluded : List (String × String)) (name : String),
        (Dict.keys fields).Nodup → (name, t) ∈ fields → ∀ dep,
          (Shape.graph fields excluded).DependsOn name dep ↔
            (s.DependsOn dep ∨ dep = Path.readKey key) ∧ (name, dep) ∉ excluded) ∧
    (Path.readKey key = key ↔ ¬ Path.ZeroPadded key) := by
  refine ⟨h.value_eq, fun s t rule ht fields excluded name hkeys hmem dep => ?_,
    h.toName.readKey_eq_iff⟩
  rw [Shape.dependsOn_graph_of_mem hkeys hmem, h.dependsOn_when ht]

/-- A year is the key of its own field. An agent's number has zeros in front: the field of
    the number without the zeros is read instead, and a field with a condition on it is put
    behind that one and not behind the field of its name. -/
theorem Reference.ofKey_means_field_agent :
    (ofKey "2024").value (some (.obj [("2024", .int 1)])) none = some (.int 1) ∧
    (ofKey "007").value (some (.obj [("007", .int 1), ("7", .int 2)])) none = some (.int 2) ∧
    ∃ s t : Schema, s.when [ofKey "007"] (.guarded (.equal .null) (some (.refine [])) none) =
        .ok t ∧
      (Shape.graph [("name", t), ("007", s)] []).DependsOn "name" "7" ∧
      ¬ (Shape.graph [("name", t), ("007", s)] []).DependsOn "name" "007" := by
  obtain ⟨hyear, -, -⟩ := ofKey_means_field (by decide : SiblingName "2024")
  obtain ⟨hagent, hedges, hkey⟩ := ofKey_means_field (by decide : SiblingName "007")
  have hread : Path.readKey "007" = "7" := by decide
  obtain ⟨s, t, hnone, ht⟩ : ∃ s t : Schema, s.traits.deps = [] ∧
      s.when [ofKey "007"] (.guarded (.equal .null) (some (.refine [])) none) = .ok t :=
    ⟨.fresh .standard .string, _, rfl, rfl⟩
  have hkeys : (Dict.keys [("name", t), ("007", s)]).Nodup := (by decide : ["name", "007"].Nodup)
  have hedge := hedges s t _ ht [("name", t), ("007", s)] [] "name" hkeys List.mem_cons_self
  refine ⟨hyear _ none, ?_, s, t, ht, (hedge "7").mpr ⟨Or.inr hread.symm, List.not_mem_nil⟩,
    fun hdepends => ?_⟩
  · rw [hagent, hread]
    rfl
  · obtain ⟨hbefore | hsame, -⟩ := (hedge "007").mp hdepends
    · obtain ⟨r, hr, -⟩ := hbefore
      exact absurd (hnone ▸ hr) List.not_mem_nil
    · exact hkey.mp hsame.symm (by decide)

end Conform
