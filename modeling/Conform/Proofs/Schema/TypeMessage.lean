/-
  Conform.Proofs.Schema.TypeMessage

  The message of the type check decides nothing. Schemas are muted when this message is
  taken from them; whatever is done to a schema, two schemas that are one when muted
  fail alike or end as schemas that are one when muted. A cast does not read the message
  at all.
-/

import Conform.Proofs.Schema.Concatenation
import Conform.Schema.Cast

namespace Conform

namespace Schema

variable {s t : Schema}

-- ============================================================================
-- Muting
-- ============================================================================

/-- A schema without a message for the type check. -/
def mute (s : Schema) : Schema := s.setTypeError ""

theorem mute_setTypeError (s : Schema) (message : Message) : (s.setTypeError message).mute = s.mute :=
  rfl

/-- Schemas that are one when muted differ in a message at most. -/
theorem eq_setTypeError_of_mute (h : t.mute = s.mute) :
    t = s.setTypeError t.traits.typeError.message := by
  obtain ⟨kind, conditions, traits⟩ := t
  obtain ⟨kind', conditions', traits'⟩ := s
  obtain ⟨label, metadata, fallback, nullable, strip, options, transforms, tests, exclusive,
    typeError, allow, allowCheck, deny, denyCheck, deps⟩ := traits
  obtain ⟨head, predicate⟩ := typeError
  obtain ⟨name, exclusive', message, params⟩ := head
  simp only [mute, setTypeError, mapTraits, Test.withMessage, Schema.mk.injEq, Traits.mk.injEq,
    Test.mk.injEq, TestHead.mk.injEq] at h ⊢
  simp_all

/-- Whether what is done to a schema does not depend on the message of its type check,
    but for this message. -/
def Deaf (f : Schema → Result Schema) : Prop := ∀ s, (f s.mute).map mute = (f s).map mute

namespace Deaf

variable {f g : Schema → Result Schema}

theorem congr (hf : Deaf f) (h : t.mute = s.mute) : (f t).map mute = (f s).map mute := by
  rw [← hf t, ← hf s, h]

theorem of_error {e : Failure} : Deaf fun _ => .error e := fun _ => rfl

theorem bind (hf : Deaf f) (hg : Deaf g) : Deaf fun s => f s >>= g := by
  intro s
  have hfirst := hf s
  show (f s.mute >>= g).map mute = (f s >>= g).map mute
  cases hm : f s.mute with
  | error e =>
      cases hs : f s with
      | error e' =>
          rw [hm, hs] at hfirst
          cases hfirst
          rfl
      | ok t =>
          rw [hm, hs] at hfirst
          cases hfirst
  | ok t =>
      cases hs : f s with
      | error e' =>
          rw [hm, hs] at hfirst
          cases hfirst
      | ok u =>
          rw [hm, hs] at hfirst
          exact hg.congr (Except.ok.inj hfirst)

/-- A recipe that is carried out on the way does not see the schema. -/
theorem of_bind {α : Type} {r : Result α} {next : α → Schema → Result Schema}
    (h : ∀ a, Deaf (next a)) : Deaf fun s => r >>= fun a => next a s := by
  intro s
  cases r with
  | error e => rfl
  | ok a => exact h a s

end Deaf

-- ============================================================================
-- Refinements
-- ============================================================================

theorem Deaf.of_edit {g : Schema → Schema} (h : ∀ s, (g s.mute).mute = (g s).mute) :
    Deaf fun s => .ok (g s) := fun s => congrArg Except.ok (h s)

/-- A method for one kind, with an edit behind it. -/
theorem requireKind_deaf {kind : KindTag} {method : String} {g : Schema → Result Schema}
    (hg : Deaf g) : Deaf fun s => s.requireKind kind method >>= g := by
  refine Deaf.bind (fun s => ?_) hg
  have htag : s.mute.tag = s.tag := rfl
  dsimp only [requireKind, unsupported]
  rw [htag]
  split <;> rfl

theorem required_mute (s : Schema) (locale : Locale) :
    (s.mute.required locale).mute = (s.required locale).mute := by
  obtain ⟨kind, conditions, traits⟩ := s
  cases kind <;> rfl

theorem withMessage_mute (s : Schema) (name : String) (message : Message) :
    (s.mute.withMessage name message).mute = (s.withMessage name message).mute := by
  have htype : (Traits.reword name message (s.traits.typeError.withMessage "")).withMessage "" =
      (Traits.reword name message s.traits.typeError).withMessage "" := by
    have hnamed : (s.traits.typeError.withMessage "").isNamed name =
        s.traits.typeError.isNamed name := rfl
    rw [Traits.reword, Traits.reword, hnamed]
    split <;> rfl
  exact congrArg (fun x => Schema.mk s.kind s.conditions
    { s.traits.withMessage name message with typeError := x }) htype

theorem min_deaf (locale : Locale) (bound : Param) : Deaf fun s => s.min locale bound := by
  intro s
  have htag : s.mute.tag = s.tag := rfl
  dsimp only [Schema.min, unsupported]
  rw [htag]
  split <;> rfl

theorem max_deaf (locale : Locale) (bound : Param) : Deaf fun s => s.max locale bound := by
  intro s
  have htag : s.mute.tag = s.tag := rfl
  dsimp only [Schema.max, unsupported]
  rw [htag]
  split <;> rfl

theorem ensure_deaf : Deaf Schema.ensure := by
  intro s
  have htag : s.mute.tag = s.tag := rfl
  dsimp only [Schema.ensure, unsupported]
  rw [htag]
  split <;> rfl

theorem round_deaf (method : String) : Deaf fun s => s.round method := by
  refine requireKind_deaf fun s => ?_
  dsimp only
  split <;> rfl

theorem noUnknown_deaf (locale : Locale) (mark : Option Mark) (refuse : Bool) :
    Deaf fun s => s.noUnknown locale mark refuse := by
  refine requireKind_deaf (.of_edit fun s => ?_)
  dsimp only
  split <;> rfl

theorem test_deaf (x : Test) : Deaf fun s => s.test x := by
  intro s
  dsimp only [Schema.test]
  split <;> rfl

theorem when_deaf (refs : List Reference) (rule : Rule Schema Recipe Step) :
    Deaf fun s => s.when refs rule := by
  intro s
  dsimp only [Schema.when]
  split <;> rfl

theorem shape_deaf (fields : List (String × Schema)) (excluded : List (String × String)) :
    Deaf fun s => s.shape fields excluded := by
  intro s
  have hkind : s.mute.kind = s.kind := rfl
  dsimp only [Schema.shape, unsupported]
  rw [hkind]
  split
  · cases Shape.sorted _ _ <;> rfl
  · rfl

/-- The right side brings its own check of the type. -/
theorem concat_mute (s t : Schema) : s.mute.concat t = s.concat t := by
  obtain ⟨kind, conditions, traits⟩ := t
  rw [Schema.concat, Schema.concat]
  rfl

theorem concat_deaf (t : Schema) : Deaf fun s => s.concat t := by
  intro s
  dsimp only
  rw [concat_mute]

/-- A fresh mixed schema sets nothing but the message of the type check. -/
theorem Regular.concat_fresh_mixed {C : RecipeClass} (h : s.Regular C) (locale : Locale) :
    s.concat (.fresh locale .mixed) = .ok (s.setTypeError (locale .notType)) := by
  obtain ⟨message, htype⟩ := h.typed
  have hcompatible : s.tag.compatible (Schema.fresh locale .mixed).tag = true := by
    simp [KindTag.compatible, Schema.fresh, tag, Kind.tag]
  have hkind : concatKind s.kind (Schema.fresh locale .mixed).kind = .ok s.kind := by
    rw [Schema.fresh, concatKind.eq_def]
  have hjoin : s.traits.join (Schema.fresh locale .mixed).traits =
      { s.traits with typeError := s.traits.typeError.withMessage (locale .notType) } := by
    have hunion : ∀ set : EntrySet, set.union .empty = set := fun _ => rfl
    rw [htype]
    simp [Traits.join, Schema.fresh, NodeOptions.merge, NodeOptions.none, hunion, Test.named,
      Test.withMessage]
  rw [concat_of_concatKind hcompatible hkind, hjoin]
  exact congrArg (fun conditions => Except.ok (Schema.mk s.kind conditions _))
    (List.append_nil s.conditions)

end Schema

-- ============================================================================
-- Steps
-- ============================================================================

namespace Workshop

open Schema

variable {w : Workshop} {invoke : Invoke} {mark : Option Mark}

/-- Whether calls of methods are deaf. -/
def DeafCalls (invoke : Invoke) : Prop :=
  ∀ name args mark, Deaf fun s => invoke s name args mark

theorem takeStep_deaf (hinvoke : DeafCalls invoke) (step : Step) :
    Deaf fun s => takeStep w invoke mark s step := by
  cases step <;> simp only [takeStep]
  case label | metadata | fallback | nullable | strict | strip | options | notRequired |
      transform | typeError | oneOf | notOneOf =>
    exact .of_edit fun s => rfl
  case required => exact .of_edit fun s => s.required_mute _
  case withMessage => exact .of_edit fun s => s.withMessage_mute _ _
  case min => exact min_deaf _ _
  case max => exact max_deaf _ _
  case ensure => exact ensure_deaf
  case round => exact round_deaf _
  case noUnknown => exact noUnknown_deaf _ _ _
  case test => exact .of_bind fun x => test_deaf x
  case when => exact .of_bind fun rule => when_deaf _ rule
  case concat => exact .of_bind fun other => concat_deaf other
  case shape => exact .of_bind fun fields => shape_deaf fields _
  case element => exact .of_bind fun t => requireKind_deaf (.of_edit fun s => rfl)
  case apply => exact hinvoke _ _ _
  all_goals exact requireKind_deaf (.of_edit fun s => rfl)

theorem takeSteps_deaf (hinvoke : DeafCalls invoke) (steps : List Step) (position : Nat) :
    Deaf fun s => takeSteps w invoke mark position s steps := by
  induction steps generalizing position with
  | nil =>
      intro s
      simp only [takeSteps]
      rfl
  | cons step rest ih =>
      simp only [takeSteps]
      exact (takeStep_deaf hinvoke step).bind (ih (position + 1))

theorem carryOut_deaf (hinvoke : DeafCalls invoke) (choice : Choice Recipe Step) :
    Deaf fun s => w.carryOut invoke mark s choice := by
  cases choice with
  | fail e => exact .of_error
  | refine steps => exact takeSteps_deaf hinvoke steps 0
  | replace r => exact fun s => rfl

theorem invoke_deaf (w : Workshop) (depth : Nat) : DeafCalls (w.invoke depth) := by
  induction depth with
  | zero =>
      intro name args mark s
      rfl
  | succ depth ih =>
      intro name args mark s
      have htag : s.mute.tag = s.tag := rfl
      dsimp only [invoke, Registry.apply]
      rw [htag]
      split
      · exact carryOut_deaf ih _ s
      · rfl

theorem decided_deaf (w : Workshop) (mark : Option Mark) (choice : Choice Recipe Step) :
    Deaf fun s => w.decided mark s choice :=
  carryOut_deaf (w.invoke_deaf depthLimit) choice

-- ============================================================================
-- Resolution
-- ============================================================================

theorem takeBranch_deaf (w : Workshop) (mark : Option Mark)
    (branch : Option (Branch Schema Recipe Step)) :
    Deaf fun s => w.takeBranch mark s branch := by
  cases branch with
  | none => exact .of_edit fun s => rfl
  | some b =>
      cases b with
      | join t => exact concat_deaf t
      -- the message of the type check is no part of what the function sees
      | map decide => exact fun s => w.decided_deaf mark (decide s.view) s

theorem takeRule_deaf (w : Workshop) (mark : Option Mark) (values : List (Option Value))
    (rule : Rule Schema Recipe Step) : Deaf fun s => w.takeRule mark s values rule := by
  cases rule with
  | guarded guard yes no => exact w.takeBranch_deaf mark _
  | resolver choose => exact fun s => w.decided_deaf mark (choose values s.view) s

theorem takeConditions_deaf (w : Workshop) (mark : Option Mark) (position : Nat)
    (parent context : Option Value) (conditions : List (Condition Schema)) :
    Deaf fun s => w.takeConditions mark position parent context s conditions := by
  induction conditions generalizing position with
  | nil => exact .of_edit fun s => rfl
  | cons c rest ih =>
      simp only [takeConditions]
      exact (w.takeRule_deaf _ _ c.rule).bind (ih (position + 1))

theorem resolve_deaf (w : Workshop) (value : Option Value) (options : CallOptions) :
    Deaf fun s => w.resolve s value options := by
  intro s
  have hkind : s.mute.kind = s.kind := rfl
  dsimp only [resolve]
  rw [depthLimit, resolveWithin, resolveWithin, hkind]
  split
  · rfl
  · have hconditions (mark : Option Mark) := w.takeConditions_deaf mark 0 options.parent
      options.context s.conditions
    exact (hconditions _).bind (.of_edit fun s => rfl) s.clearConditions

/-- Schemas that are one when muted fail to resolve alike, or resolve to schemas that are
    one when muted. -/
theorem resolve_of_mute {s t : Schema} (h : t.mute = s.mute) (value : Option Value)
    (options : CallOptions) :
    (∃ e, w.resolve s value options = .error e ∧ w.resolve t value options = .error e) ∨
      ∃ u v, w.resolve s value options = .ok u ∧ w.resolve t value options = .ok v ∧
        v.mute = u.mute := by
  have hresolve := (w.resolve_deaf value options).congr h
  cases hs : w.resolve s value options with
  | error e =>
      rw [hs] at hresolve
      cases ht : w.resolve t value options with
      | error e' =>
          rw [ht] at hresolve
          cases hresolve
          exact Or.inl ⟨e, rfl, rfl⟩
      | ok v =>
          rw [ht] at hresolve
          cases hresolve
  | ok u =>
      rw [hs] at hresolve
      cases ht : w.resolve t value options with
      | error e' =>
          rw [ht] at hresolve
          cases hresolve
      | ok v =>
          rw [ht] at hresolve
          exact Or.inr ⟨u, v, rfl, rfl, Except.ok.inj hresolve⟩

-- ============================================================================
-- Casts
-- ============================================================================

theorem castNode_mute (w : Workshop) (castPart : CastPart) (validating : Bool) (s : Schema) :
    w.castNode castPart validating s.mute = w.castNode castPart validating s := by
  have hdefault : s.mute.defaultValue = s.defaultValue := by
    obtain ⟨kind, conditions, traits⟩ := s
    rw [mute, setTypeError, mapTraits, defaultValue, defaultValue]
  funext raw options
  rw [castNode, castNode, hdefault]
  rfl

theorem castResolved_mute (w : Workshop) (validating : Bool) (s : Schema) :
    w.castResolved validating s.mute = w.castResolved validating s := by
  have hheight : s.mute.height = s.height := by
    obtain ⟨kind, conditions, traits⟩ := s
    rw [mute, setTypeError, mapTraits, height, height]
  funext raw options
  rw [castResolved, castResolved, hheight, castNode_mute]

theorem castResolved_of_mute {s t : Schema} (h : t.mute = s.mute) (validating : Bool) :
    w.castResolved validating t = w.castResolved validating s := by
  rw [← castResolved_mute w validating t, ← castResolved_mute w validating s, h]

/-- Schemas that are one when muted cast alike. -/
theorem cast_of_mute {s t : Schema} (h : t.mute = s.mute) (value : Option Value)
    (options : CallOptions) : w.cast t value options = w.cast s value options := by
  rw [cast, cast]
  rcases w.resolve_of_mute h value options with ⟨e, hs, ht⟩ | ⟨u, v, hs, ht, huv⟩
  · rw [hs, ht]
  · rw [hs, ht]
    simp only [bind, Except.bind, castResolved_of_mute huv]

end Workshop

end Conform
