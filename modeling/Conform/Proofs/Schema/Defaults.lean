/-
  Conform.Proofs.Schema.Defaults

  Objects as they are put together key by key. The default of an object schema and
  the result of a cast are both gathered over the order of the shape: each key of
  the order stands in the object with its value, if it has one, and no key is
  written twice.
-/

import Conform.Proofs.Schema.Casting

namespace Conform

-- ============================================================================
-- Gathered dictionaries
-- ============================================================================

namespace Dict

variable {α : Type} {d : Dict α} {key : String} {keys : List String}
  {value : String → Option α}

/-- Sets a key, if there is a value for it. -/
def supply (d : Dict α) (key : String) : Option α → Dict α
  | some v => d.insert key v
  | none => d

theorem get?_supply_of_ne (d : Dict α) (v : Option α) {k : String} (h : k ≠ key) :
    (d.supply key v).get? k = d.get? k := by
  cases v with
  | none => rfl
  | some v => exact get?_insert_of_ne d v h

theorem get?_supply_self (hnew : d.get? key = none) (v : Option α) :
    (d.supply key v).get? key = v := by
  cases v with
  | none => exact hnew
  | some v => exact get?_insert_self d key v

/-- The dictionary of the values that keys have. -/
def gather (value : String → Option α) (keys : List String) : Dict α :=
  keys.foldl (fun d key => d.supply key (value key)) []

theorem get?_foldl_supply_of_not_mem (h : key ∉ keys) :
    (keys.foldl (fun d k => d.supply k (value k)) d).get? key = d.get? key := by
  induction keys generalizing d with
  | nil => rfl
  | cons first rest ih =>
      rw [List.foldl_cons, ih fun hmem => h (List.mem_cons_of_mem _ hmem)]
      exact get?_supply_of_ne d (value first) fun heq => h (heq ▸ List.mem_cons_self)

/-- A key that is gathered has its value. -/
theorem get?_gather (hnodup : keys.Nodup) (h : key ∈ keys) :
    (gather value keys).get? key = value key := by
  obtain ⟨before, rest, rfl⟩ := List.append_of_mem h
  obtain ⟨-, hcons, hdisjoint⟩ := List.nodup_append.mp hnodup
  have hbefore : key ∉ before := fun hmem => hdisjoint key hmem key List.mem_cons_self rfl
  rw [gather, List.foldl_append, List.foldl_cons,
    get?_foldl_supply_of_not_mem (List.nodup_cons.mp hcons).1]
  exact get?_supply_self (get?_foldl_supply_of_not_mem hbefore) (value key)

theorem mem_insert {d : Dict α} {v : α} {e : String × α} (h : e ∈ d.insert key v) :
    e ∈ d ∨ e.1 = key := by
  induction d with
  | nil => exact Or.inr (by simp_all [insert])
  | cons first rest ih =>
      rw [insert] at h
      split at h
      · rcases List.mem_cons.mp h with rfl | hrest
        · exact Or.inr rfl
        · exact Or.inl (List.mem_cons_of_mem _ hrest)
      · split at h
        · rcases List.mem_cons.mp h with rfl | hold
          · exact Or.inr rfl
          · exact Or.inl hold
        · rcases List.mem_cons.mp h with rfl | hrest
          · exact Or.inl List.mem_cons_self
          · exact (ih hrest).imp_left (List.mem_cons_of_mem _)

theorem mem_supply {d : Dict α} {v : Option α} {e : String × α} (h : e ∈ d.supply key v) :
    e ∈ d ∨ e.1 = key := by
  cases v with
  | none => exact Or.inl h
  | some v => exact mem_insert h

/-- No other key is gathered. -/
theorem mem_gather {e : String × α} (h : e ∈ gather value keys) : e.1 ∈ keys := by
  suffices hfold : ∀ {d : Dict α}, e ∈ keys.foldl (fun d k => d.supply k (value k)) d →
      e ∈ d ∨ e.1 ∈ keys from (hfold h).resolve_left (by simp)
  clear h
  intro d h
  induction keys generalizing d with
  | nil => exact Or.inl h
  | cons first rest ih =>
      rcases ih h with hsupply | hrest
      · rcases mem_supply hsupply with hold | heq
        · exact Or.inl hold
        · exact Or.inr (List.mem_cons.mpr (Or.inl heq))
      · exact Or.inr (List.mem_cons_of_mem _ hrest)

end Dict

-- ============================================================================
-- Defaults
-- ============================================================================

namespace Schema

variable {s : Schema} {shape : Shape Schema}

theorem lookup_fieldDefaults (fields : List (String × Schema)) (key : String) :
    (fieldDefaults fields).lookup key = (fields.lookup key).map defaultValue := by
  induction fields with
  | nil => rfl
  | cons first rest ih =>
      obtain ⟨k, s⟩ := first
      rw [fieldDefaults, List.lookup_cons, List.lookup_cons, ih]
      cases key == k <;> rfl

/-- An object schema with fields gathers their defaults. -/
theorem kindDefault_object (shape : Shape Schema) :
    kindDefault (.object shape) = if shape.fields.isEmpty then none else
      some (.obj (Dict.gather (fun key => (shape.fields.lookup key).bind defaultValue)
        shape.order)) := by
  obtain ⟨fields, order, excluded⟩ := shape
  rw [kindDefault]
  dsimp only
  split
  · rfl
  · congr 2
    unfold Dict.gather
    congr 1
    funext out key
    dsimp only
    rw [lookup_fieldDefaults]
    cases fields.lookup key with
    | none => rfl
    | some field =>
        dsimp only [Option.map_some, Option.bind_some]
        cases field.defaultValue <;> rfl

/-- A schema that no default is declared for has the default of its kind, if it has
    one: only object schemas with fields do. -/
theorem defaultValue_cases (hfallback : ∀ v, s.traits.fallback ≠ some (some v)) {v : Value}
    (h : s.defaultValue = some v) :
    ∃ shape, s.kind = .object shape ∧
      v = .obj (Dict.gather (fun key => (shape.fields.lookup key).bind defaultValue)
        shape.order) := by
  obtain ⟨kind, conditions, traits⟩ := s
  rw [defaultValue] at h
  split at h
  · next u hdeclared => exact absurd (h ▸ hdeclared) (hfallback v)
  · cases kind with
    | object shape =>
        rw [kindDefault_object] at h
        split at h
        · exact absurd h (by simp)
        · exact ⟨shape, rfl, (Option.some.inj h).symm⟩
    | _ => exact absurd h (by simp [kindDefault])

end Schema

-- ============================================================================
-- Keys of a cast
-- ============================================================================

namespace Workshop

variable {w : Workshop} {castPart : CastPart} {validating : Bool} {options : CallOptions}
  {fields : List (String × Schema)} {keepUnknown : Bool} {input done after : Dict Value}

/-- The value that a key of the order gets, behind the fields that are done. -/
def keyValue (w : Workshop) (castPart : CastPart) (validating : Bool) (options : CallOptions)
    (fields : List (String × Schema)) (keepUnknown : Bool) (input done : Dict Value)
    (key : String) : Result (Option Value) :=
  match fields.lookup key with
  | some field => castField w castPart validating options done key field (Dict.get? input key)
  | none => .ok (if keepUnknown then Dict.get? input key else none)

theorem castKey_eq (key : String) :
    w.castKey castPart validating options fields keepUnknown input done key =
      w.keyValue castPart validating options fields keepUnknown input done key >>= fun value =>
        .ok (done.supply key value) := by
  rw [castKey, keyValue]
  cases fields.lookup key with
  | none => cases keepUnknown <;> cases Dict.get? input key <;> rfl
  | some field =>
      refine congrArg (_ >>= ·) (funext fun value => ?_)
      cases value <;> rfl

/-- A cast over keys that differ gathers the value of each, as it was found behind the
    keys before. -/
theorem foldlM_castKey_gathers {keys : List String} (hnodup : keys.Nodup)
    (hnew : ∀ key ∈ keys, Dict.get? done key = none)
    (h : keys.foldlM (w.castKey castPart validating options fields keepUnknown input) done =
      .ok after) :
    after = keys.foldl (fun d key => d.supply key (Dict.get? after key)) done ∧
      ∀ key ∈ keys, ∃ d, w.keyValue castPart validating options fields keepUnknown input d key =
        .ok (Dict.get? after key) := by
  induction keys generalizing done with
  | nil =>
      cases h
      exact ⟨rfl, by simp⟩
  | cons key rest ih =>
      obtain ⟨hkey, hrest⟩ := List.nodup_cons.mp hnodup
      rw [List.foldlM_cons, castKey_eq] at h
      obtain ⟨between, hbetween, h⟩ := bind_eq_ok.mp h
      obtain ⟨value, hvalue, hset⟩ := bind_eq_ok.mp hbetween
      cases hset
      have hafter : Dict.get? after key = value := by
        rw [foldlM_castKey_frame hkey h, Dict.get?_supply_self (hnew key List.mem_cons_self)]
      have hnew' : ∀ k ∈ rest, Dict.get? (done.supply key value) k = none := by
        intro k hk
        rw [Dict.get?_supply_of_ne done value fun heq : k = key => hkey (heq ▸ hk)]
        exact hnew k (List.mem_cons_of_mem _ hk)
      obtain ⟨hfold, hvalues⟩ := ih hrest hnew' h
      refine ⟨by rw [List.foldl_cons, hafter]; exact hfold, fun k hk => ?_⟩
      rcases List.mem_cons.mp hk with rfl | hlater
      · exact ⟨done, hafter ▸ hvalue⟩
      · exact hvalues k hlater

/-- Where the value of each key does not depend on the keys before, a cast gathers
    these values. -/
theorem foldlM_castKey_eq {keys : List String} {value : String → Option Value}
    (h : ∀ d, ∀ key ∈ keys,
      w.keyValue castPart validating options fields keepUnknown input d key = .ok (value key)) :
    keys.foldlM (w.castKey castPart validating options fields keepUnknown input) done =
      .ok (keys.foldl (fun d key => d.supply key (value key)) done) := by
  induction keys generalizing done with
  | nil => rfl
  | cons key rest ih =>
      rw [List.foldlM_cons, castKey_eq, h done key List.mem_cons_self]
      exact ih fun d k hk => h d k (List.mem_cons_of_mem _ hk)

end Workshop

end Conform
