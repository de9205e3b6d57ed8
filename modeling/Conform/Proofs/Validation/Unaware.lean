/-
  Conform.Proofs.Validation.Unaware

  Recipes that are unaware of the policy of a call: none of their predicates and
  lazy schemas reads whether the call stops at the first violation, and what their
  functions report are leaves. Schemas made by such recipes resolve, cast and judge
  alike under either policy.
-/

import Conform.Proofs.Schema.Mistakes
import Conform.Proofs.Validation.Collection

namespace Conform

/-- The options of a call under another policy. -/
def CallOptions.withAbort (options : CallOptions) (abortEarly : Option Bool) : CallOptions :=
  { options with abortEarly }

-- ============================================================================
-- Unaware recipes
-- ============================================================================

/-- Whether a predicate does not read the policy of the call, and reports leaves
    only. -/
structure Predicate.Unaware (p : Predicate) : Prop where
  judge_withAbort : ∀ head subject abortEarly,
    p.judge ⟨head, { subject with options := subject.options.withAbort abortEarly }⟩ =
      p.judge ⟨head, subject⟩
  isLeaf : ∀ ctx v, p.judge ctx = .error v → v.IsLeaf

/-- Whether a lazy schema does not read the policy of the call, and reports leaves only. -/
structure Pick.Unaware (pick : Pick) : Prop where
  pick_withAbort : ∀ value options abortEarly,
    pick value (options.withAbort abortEarly) = pick value options
  isLeaf : ∀ value options v, pick value options = .error (.violation v) → v.IsLeaf

/-- Whether a failure is a leaf, if it is a violation. -/
def Failure.ReportsLeaf (e : Failure) : Prop := ∀ v, e = .violation v → v.IsLeaf

theorem Predicate.BuiltIn.unaware {p : Predicate} (h : p.BuiltIn) : p.Unaware := by
  cases h with
  | check c =>
      refine ⟨?_, fun ctx v hv => Check.isLeaf_of_judge hv⟩
      intro head subject abortEarly
      cases c <;> rfl
  | matching mark regex excludeEmpty =>
      exact ⟨fun _ _ _ => rfl, fun _ v hv => absurd hv (Outcome.ofBool_ne_error _ v)⟩
  | noUnknown mark refuse =>
      exact ⟨fun _ _ _ => rfl, fun _ v hv => absurd hv (Outcome.ofBool_ne_error _ v)⟩

/-- The recipes that are unaware of the policy of a call, and whose functions report leaves
    where they report violations in place of schemas. -/
def RecipeClass.unaware : RecipeClass :=
  .bringing Pick.Unaware Predicate.Unaware Failure.ReportsLeaf
    (fun hpick he v hv => hpick.isLeaf _ _ v (hv ▸ he)) Predicate.BuiltIn.unaware

variable {w : Workshop} {s : Schema}

-- ============================================================================
-- Resolution
-- ============================================================================

namespace Workshop

theorem resolveWithin_withAbort (hw : w.Equipped .unaware) {depth : Nat}
    (hs : s.WellMade .unaware) (value : Option Value) (options : CallOptions)
    (abortEarly : Option Bool) :
    w.resolveWithin depth s value (options.withAbort abortEarly) =
      w.resolveWithin depth s value options := by
  induction depth generalizing s with
  | zero => rfl
  | succ depth ih =>
      rw [resolveWithin, resolveWithin]
      split
      · next pick hkind =>
          have hpick := hs.here.pick pick hkind
          rw [hpick.1.pick_withAbort]
          cases hr : pick value options with
          | error e => rfl
          | ok r =>
              simp only [bind, Except.bind]
              cases hmade : w.build (part w.evaluation depth) r with
              | error e => rfl
              | ok made =>
                  exact ih (build_wellMade hw (RecipeClass.unaware.recipe_of_pick hpick hr) hmade)
      · rfl

/-- A schema resolves alike under either policy. -/
theorem resolve_withAbort (hw : w.Equipped .unaware) (hs : s.WellMade .unaware)
    (value : Option Value) (options : CallOptions) (abortEarly : Option Bool) :
    w.resolve s value (options.withAbort abortEarly) = w.resolve s value options :=
  resolveWithin_withAbort hw hs value options abortEarly

end Workshop

-- ============================================================================
-- Casts
-- ============================================================================

/-- Whether the casts of parts come out alike under either policy. -/
def CastPart.Unaware (castPart : CastPart) : Prop :=
  ∀ {s : Schema}, s.WellMade .unaware → ∀ raw options abortEarly,
    castPart s raw (options.withAbort abortEarly) = castPart s raw options

namespace CastPart.Unaware

variable {castPart : CastPart} {validating : Bool}

theorem castField_withAbort (hw : w.Equipped .unaware) (h : CastPart.Unaware castPart)
    {field : Schema} (hfield : field.WellMade .unaware) (options : CallOptions)
    (abortEarly : Option Bool) (done : Dict Value) (key : String) (raw : Option Value) :
    w.castField castPart validating (options.withAbort abortEarly) done key field raw =
      w.castField castPart validating options done key field raw := by
  have hoptions : (options.withAbort abortEarly).forField done key =
      (options.forField done key).withAbort abortEarly := rfl
  unfold Workshop.castField
  dsimp only
  rw [hoptions, Workshop.resolve_withAbort hw hfield]
  cases hresolved : w.resolve field raw (options.forField done key) with
  | error e => rfl
  | ok resolved =>
      have hmade := Workshop.resolve_wellMade hw hfield hresolved
      simp only [bind, Except.bind]
      rw [h hmade]

/-- The fields of an object are cast alike, one after the other. -/
theorem castFields_withAbort (hw : w.Equipped .unaware) (h : CastPart.Unaware castPart)
    {shape : Shape Schema} (hfields : ∀ f ∈ shape.fields, f.2.WellMade .unaware)
    (input : Dict Value) (options : CallOptions) (abortEarly : Option Bool) :
    w.castFields castPart validating s shape input (options.withAbort abortEarly) =
      w.castFields castPart validating s shape input options := by
  have hdrops : (options.withAbort abortEarly).dropsUnknown s = options.dropsUnknown s := rfl
  have hkey : w.castKey castPart validating (options.withAbort abortEarly) shape.fields
        (!options.dropsUnknown s) input =
      w.castKey castPart validating options shape.fields (!options.dropsUnknown s) input := by
    funext done key
    unfold Workshop.castKey
    cases hlookup : shape.fields.lookup key with
    | none => rfl
    | some field =>
        dsimp only
        rw [castField_withAbort hw h (hfields _ (Dict.mem_of_get? hlookup))]
  unfold Workshop.castFields
  dsimp only
  rw [hdrops, hkey]

/-- The items of an array are cast alike, one after the other. -/
theorem castItems_withAbort (hw : w.Equipped .unaware) (h : CastPart.Unaware castPart)
    {element : Schema} (helement : element.WellMade .unaware) (options : CallOptions)
    (abortEarly : Option Bool) (items : List Value) (position : Nat) :
    w.castItems castPart element (options.withAbort abortEarly) position items =
      w.castItems castPart element options position items := by
  induction items generalizing position with
  | nil => rfl
  | cons item rest ih =>
      have hoptions : (options.withAbort abortEarly).forItem position =
          (options.forItem position).withAbort abortEarly := rfl
      rw [Workshop.castItems, Workshop.castItems, hoptions,
        Workshop.resolve_withAbort hw helement, ih]
      cases hresolved : w.resolve element (some item) (options.forItem position) with
      | error e => rfl
      | ok resolved =>
          have hmade := Workshop.resolve_wellMade hw helement hresolved
          simp only [bind, Except.bind]
          rw [h hmade]

/-- A node is cast alike if its parts are. -/
theorem castNode (hw : w.Equipped .unaware) (h : CastPart.Unaware castPart) (validating : Bool) :
    CastPart.Unaware (w.castNode castPart validating) := by
  intro s hs raw options abortEarly
  have hparts : ∀ v, w.castParts castPart validating s v (options.withAbort abortEarly) =
      w.castParts castPart validating s v options := by
    intro v
    unfold Workshop.castParts
    split
    · next shape input hkind =>
        exact castFields_withAbort hw h (fun f hf => hs.field hkind hf) input options abortEarly
    · next element items hkind =>
        rw [castItems_withAbort hw h (hs.element hkind)]
    · rfl
  unfold Workshop.castNode
  dsimp only
  cases raw.bind (Workshop.prepare s) with
  | none => rfl
  | some v =>
      dsimp only
      rw [hparts v]
      rfl

theorem castWithin (hw : w.Equipped .unaware) (depth : Nat) :
    CastPart.Unaware (w.castWithin depth) := by
  induction depth with
  | zero => exact fun _ _ _ _ => rfl
  | succ depth ih => exact castNode hw ih false

end CastPart.Unaware

/-- A value is cast alike under either policy. -/
theorem Workshop.castResolved_withAbort (hw : w.Equipped .unaware) (validating : Bool) :
    CastPart.Unaware (w.castResolved validating) := by
  intro s hs raw options abortEarly
  exact CastPart.Unaware.castNode hw (CastPart.Unaware.castWithin hw _) validating hs raw options
    abortEarly

end Conform
