/-
  Conform.Proofs.Schema.Everywhere

  Properties that hold of a schema and of all schemas inside it: of its fields
  and elements, and of the branches of its conditions. Such a property is handed
  on to a concatenation if the nodes of the concatenation have it.
-/

import Conform.Schema.Concat

namespace Conform

/-- The schemas that the branches of a rule concatenate. -/
def Rule.joined (rule : Rule Schema Recipe Step) : List Schema :=
  match rule with
  | .guarded _ yes no => [yes, no].filterMap fun branch =>
      match branch with
      | some (.join s) => some s
      | _ => none
  | .resolver _ => []

namespace Schema

/-- Whether a schema stands directly inside another one. -/
inductive Nested : Schema → Schema → Prop where
  | field {s : Schema} {shape : Shape Schema} {f : String × Schema} :
      s.kind = .object shape → f ∈ shape.fields → Nested f.2 s
  | element {s t : Schema} : s.kind = .array (.of t) → Nested t s
  | branch {s t : Schema} {c : Condition Schema} :
      c ∈ s.conditions → t ∈ c.rule.joined → Nested t s

theorem element?_eq_some {s t : Schema} : s.element? = some t ↔ s.kind = .array (.of t) := by
  rw [element?]
  split
  · next element hkind =>
      rw [hkind]
      cases element <;> simp [Element.schema?]
  · next hkind =>
      constructor
      · intro h
        cases h
      · intro h
        exact absurd h (hkind _)

theorem nested_of_element? {s t : Schema} (h : s.element? = some t) : Nested t s :=
  .element (element?_eq_some.mp h)

theorem height_pos (s : Schema) : 0 < s.height := by
  obtain ⟨kind, conditions, traits⟩ := s
  rw [height]
  omega

theorem height_le_of_mem_fields {fields : List (String × Schema)} {f : String × Schema}
    (h : f ∈ fields) : f.2.height ≤ fieldsHeight fields := by
  induction fields with
  | nil => exact absurd h (by simp)
  | cons first rest ih =>
      rw [fieldsHeight]
      rcases List.mem_cons.mp h with rfl | hrest
      · exact Nat.le_max_left _ _
      · exact Nat.le_trans (ih hrest) (Nat.le_max_right _ _)

theorem height_le_of_mem_joined {conditions : List (Condition Schema)} {c : Condition Schema}
    (hc : c ∈ conditions) {t : Schema} (ht : t ∈ c.rule.joined) :
    t.height ≤ conditionsHeight conditions := by
  have hrule : t.height ≤ ruleHeight c.rule := by
    cases hr : c.rule with
    | resolver choose => exact absurd (hr ▸ ht) (by simp [Rule.joined])
    | guarded guard yes no =>
        rw [hr] at ht
        obtain ⟨branch, hbranch, heq⟩ := List.mem_filterMap.mp ht
        split at heq
        · next u =>
            cases heq
            rw [ruleHeight]
            rcases List.mem_cons.mp hbranch with rfl | hlast
            · rw [branchHeight]
              exact Nat.le_max_left _ _
            · rw [← List.mem_singleton.mp hlast, branchHeight]
              exact Nat.le_max_right _ _
        · exact absurd heq (by simp)
  induction conditions with
  | nil => exact absurd hc (by simp)
  | cons first rest ih =>
      obtain ⟨refs, rule⟩ := first
      rw [conditionsHeight]
      rcases List.mem_cons.mp hc with rfl | hrest
      · exact Nat.le_trans hrule (Nat.le_max_left _ _)
      · exact Nat.le_trans (ih hrest) (Nat.le_max_right _ _)

/-- Schemas inside a schema are less high. -/
theorem Nested.height_lt {s t : Schema} (h : Nested t s) : t.height < s.height := by
  obtain ⟨kind, conditions, traits⟩ := s
  rw [height]
  cases h with
  | @field _ shape f hkind hf =>
      cases hkind
      have hle := height_le_of_mem_fields hf
      rw [kindHeight]
      omega
  | element hkind =>
      cases hkind
      rw [kindHeight]
      omega
  | branch hc ht =>
      have hle : t.height ≤ conditionsHeight conditions := height_le_of_mem_joined hc ht
      omega

/-- Whether a property holds of a schema and of all schemas inside it. -/
inductive Everywhere (N : Schema → Prop) : Schema → Prop where
  | intro {s : Schema} : N s → (∀ t, Nested t s → Everywhere N t) → Everywhere N s

namespace Everywhere

variable {N : Schema → Prop} {s t : Schema}

theorem here (h : s.Everywhere N) : N s := by
  cases h with
  | intro hs _ => exact hs

theorem nested (h : s.Everywhere N) (ht : Nested t s) : t.Everywhere N := by
  cases h with
  | intro _ hparts => exact hparts t ht

theorem field (h : s.Everywhere N) {shape : Shape Schema} (hkind : s.kind = .object shape)
    {f : String × Schema} (hf : f ∈ shape.fields) : f.2.Everywhere N :=
  h.nested (.field hkind hf)

theorem element (h : s.Everywhere N) (hkind : s.kind = .array (.of t)) : t.Everywhere N :=
  h.nested (.element hkind)

theorem mono {M : Schema → Prop} (h : s.Everywhere N) (hNM : ∀ {t}, N t → M t) :
    s.Everywhere M := by
  induction h with
  | intro hs _ ih => exact .intro (hNM hs) ih

/-- A schema with the parts of another one. -/
theorem of_parts (h : s.Everywhere N) (ht : N t)
    (hparts : ∀ u, Nested u t → Nested u s) : t.Everywhere N :=
  .intro ht fun u hu => h.nested (hparts u hu)

end Everywhere

/-! ## Concatenation -/

/-- Whether a property holds of all schemas inside a kind. -/
def KindHolds (P : Schema → Prop) (kind : Kind Schema) : Prop :=
  (∀ shape, kind = .object shape → ∀ f ∈ shape.fields, P f.2) ∧
    ∀ t, kind = .array (.of t) → P t

theorem KindHolds.of_everywhere {N : Schema → Prop} {s : Schema} (h : s.Everywhere N) :
    KindHolds (Everywhere N) s.kind :=
  ⟨fun _ hkind _ hf => h.field hkind hf, fun _ hkind => h.element hkind⟩

/-- A schema by its parts and by the branches of its conditions. -/
theorem Everywhere.of_children {N : Schema → Prop} {s : Schema} (hs : N s)
    (hkind : KindHolds (Everywhere N) s.kind)
    (hjoined : ∀ c ∈ s.conditions, ∀ t ∈ c.rule.joined, t.Everywhere N) : s.Everywhere N := by
  refine .intro hs fun t ht => ?_
  cases ht with
  | field heq hf => exact hkind.1 _ heq _ hf
  | element heq => exact hkind.2 _ heq
  | branch hc ht => exact hjoined _ hc _ ht

/-- A schema without conditions that nothing stands inside. -/
theorem Everywhere.of_leaf {N : Schema → Prop} {s : Schema} (hs : N s)
    (hconditions : s.conditions = []) (hobject : ∀ shape, s.kind ≠ .object shape)
    (harray : ∀ t, s.kind ≠ .array (.of t)) : s.Everywhere N :=
  .of_children hs ⟨fun shape h => absurd h (hobject shape), fun t h => absurd h (harray t)⟩
    (by simp [hconditions])

/-- An object schema without conditions, by its fields. -/
theorem Everywhere.of_fields {N : Schema → Prop} {s : Schema} {shape : Shape Schema} (hs : N s)
    (hconditions : s.conditions = []) (hkind : s.kind = .object shape)
    (hfields : ∀ f ∈ shape.fields, f.2.Everywhere N) : s.Everywhere N := by
  refine .of_children hs ⟨?_, by simp [hkind]⟩ (by simp [hconditions])
  intro shape' heq
  cases hkind.symm.trans heq
  exact hfields

/-- An array schema without conditions, by the schema of its elements. -/
theorem Everywhere.of_element {N : Schema → Prop} {s t : Schema} (hs : N s)
    (hconditions : s.conditions = []) (hkind : s.kind = .array (.of t))
    (ht : t.Everywhere N) : s.Everywhere N := by
  refine .of_children hs ⟨by simp [hkind], ?_⟩ (by simp [hconditions])
  intro t' heq
  cases hkind.symm.trans heq
  exact ht

theorem Everywhere.clearConditions {N : Schema → Prop} {s : Schema} (h : s.Everywhere N)
    (hs : N s.clearConditions) : s.clearConditions.Everywhere N := by
  have hkind : KindHolds (Everywhere N) s.kind := .of_everywhere h
  exact .of_children hs hkind (by simp [Schema.clearConditions])

/-- Fields of one key are concatenated, and other fields are put behind. -/
theorem concatFields_cons (left : List (String × Schema)) (key : String) (s : Schema)
    (rest : List (String × Schema)) :
    concatFields left ((key, s) :: rest) =
      (match left.lookup key with
        | some l => l.concat s
        | none => .ok s) >>= fun c => concatFields (Dict.put left key c) rest := by
  rw [concatFields]
  cases h : left.lookup key <;> simp

/-- Whether concatenations have a property of nodes if both sides have it. -/
def ConcatKeeps (N : Schema → Prop) : Prop :=
  ∀ {a b c : Schema}, N a → N b → a.concat b = .ok c → N c

variable {N : Schema → Prop}

mutual

/-- A property of nodes that concatenations have is handed on to them. -/
theorem Everywhere.concat (hN : ConcatKeeps N) {a c : Schema} : ∀ {b : Schema}, a.Everywhere N → b.Everywhere N →
    a.concat b = .ok c → c.Everywhere N
  | ⟨kind, conditions, traits⟩, ha, hb, h => by
      have hnode : N c := hN ha.here hb.here h
      rw [Schema.concat] at h
      split at h
      · obtain ⟨merged, hmerged, hc⟩ := bind_eq_ok.mp h
        cases hc
        have hkind := concatKind_holds hN (.of_everywhere ha) (.of_everywhere hb) hmerged
        refine .of_children hnode hkind ?_
        intro d hd t ht
        rcases List.mem_append.mp hd with hleft | hright
        · exact ha.nested (.branch hleft ht)
        · exact hb.nested (.branch hright ht)
      · exact absurd h (by simp)

theorem concatKind_holds (hN : ConcatKeeps N) {left merged : Kind Schema} : ∀ {right : Kind Schema},
    KindHolds (Everywhere N) left → KindHolds (Everywhere N) right →
    concatKind left right = .ok merged → KindHolds (Everywhere N) merged
  | .mixed, hl, _, h => by
      rw [concatKind.eq_def] at h
      cases h
      exact hl
  | .object ⟨fields, order, excluded⟩, hl, hr, h => by
      rw [concatKind.eq_def] at h
      dsimp only at h
      split at h
      · next l =>
          obtain ⟨merged, hmerged, h⟩ := bind_eq_ok.mp h
          obtain ⟨shape, hshape, h⟩ := bind_eq_ok.mp h
          cases h
          have hfields := concatFields_holds hN (hl.1 l rfl) (hr.1 _ rfl) hmerged
          refine ⟨?_, by simp⟩
          rintro shape' heq f hf
          cases heq
          rw [Shape.sorted] at hshape
          split at hshape
          · cases hshape
            exact hfields f hf
          · exact absurd hshape (by simp)
      · cases h
        exact hr
  | .array element, hl, hr, h => by
      rw [concatKind.eq_def] at h
      dsimp only at h
      split at h
      · next l =>
          obtain ⟨merged, hmerged, h⟩ := bind_eq_ok.mp h
          cases h
          refine ⟨by simp, ?_⟩
          intro t heq
          cases heq
          exact concatElement_holds hN (fun t ht => hl.2 t (by rw [ht]))
            (fun t ht => hr.2 t (by rw [ht])) hmerged t rfl
      · cases h
        exact hr
  | .string, _, _, h => by
      rw [concatKind.eq_def] at h
      cases h
      exact ⟨by simp, by simp⟩
  | .number, _, _, h => by
      rw [concatKind.eq_def] at h
      cases h
      exact ⟨by simp, by simp⟩
  | .boolean, _, _, h => by
      rw [concatKind.eq_def] at h
      cases h
      exact ⟨by simp, by simp⟩
  | .lazy pick, _, _, h => by
      rw [concatKind.eq_def] at h
      cases h
      exact ⟨by simp, by simp⟩

theorem concatElement_holds (hN : ConcatKeeps N) {left merged : Element Schema} :
    ∀ {right : Element Schema},
    (∀ t, left = .of t → t.Everywhere N) → (∀ t, right = .of t → t.Everywhere N) →
    concatElement left right = .ok merged → ∀ t, merged = .of t → t.Everywhere N
  | .unset, hl, _, h => by
      rw [concatElement.eq_def] at h
      cases h
      exact hl
  | .disabled, _, _, h => by
      rw [concatElement.eq_def] at h
      cases h
      simp
  | .of s, hl, hr, h => by
      rw [concatElement.eq_def] at h
      dsimp only at h
      split at h
      · next l =>
          obtain ⟨c, hc, h⟩ := bind_eq_ok.mp h
          cases h
          intro t heq
          cases heq
          exact Everywhere.concat hN (hl l rfl) (hr s rfl) hc
      · cases h
        exact hr

theorem concatFields_holds (hN : ConcatKeeps N) {left merged : List (String × Schema)} :
    ∀ {right : List (String × Schema)}, (∀ f ∈ left, f.2.Everywhere N) →
    (∀ f ∈ right, f.2.Everywhere N) → concatFields left right = .ok merged →
    ∀ f ∈ merged, f.2.Everywhere N
  | [], hl, _, h => by
      rw [concatFields] at h
      cases h
      exact hl
  | (key, s) :: rest, hl, hr, h => by
      rw [concatFields_cons] at h
      obtain ⟨c, hc, hrest⟩ := bind_eq_ok.mp h
      have hs : s.Everywhere N := hr _ List.mem_cons_self
      have hnew : c.Everywhere N := by
        split at hc
        · next l hl' => exact Everywhere.concat hN (hl _ (Dict.mem_of_get? hl')) hs hc
        · cases hc
          exact hs
      refine concatFields_holds hN ?_ (fun f hf => hr f (List.mem_cons_of_mem _ hf)) hrest
      intro f hf
      rcases Dict.mem_put hf with hold | heq
      · exact hl f hold
      · exact heq ▸ hnew

end

end Schema

end Conform
