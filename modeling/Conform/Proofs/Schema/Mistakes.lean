/-
  Conform.Proofs.Schema.Mistakes

  Carrying out recipes examines no value, and so it reports no violation: whatever
  goes wrong on the way is a mistake in the recipe, or what a function of the caller
  fails with. A violation that ends the resolution of a schema is one that the class of
  the schema knows of.
-/

import Conform.Proofs.Schema.Building

namespace Conform

-- ============================================================================
-- Results without violations
-- ============================================================================

namespace Result

variable {α β : Type}

/-- Whether a result is no violation. -/
def NoViolation (r : Result α) : Prop := ∀ v, r ≠ .error (.violation v)

theorem NoViolation.ok (a : α) : NoViolation (.ok a) := by
  intro v h
  exact absurd h (by simp)

theorem NoViolation.error {e : Failure} (he : ∀ v, e ≠ .violation v) :
    NoViolation (.error e : Result α) := by
  intro v h
  exact he v (Except.error.inj h)

theorem NoViolation.bind {r : Result α} {f : α → Result β} (hr : r.NoViolation)
    (hf : ∀ a, r = .ok a → (f a).NoViolation) : (r >>= f).NoViolation := by
  cases r with
  | error e => exact .error fun v he => hr v (he ▸ rfl)
  | ok a => exact hf a rfl

/-- Whether a violation that a result is was given by a function of a class. -/
def ViolationFrom (C : RecipeClass) (r : Result α) : Prop :=
  ∀ v, r = .error (.violation v) → C.failure (.violation v)

variable {C : RecipeClass}

theorem NoViolation.violationFrom {r : Result α} (h : r.NoViolation) : r.ViolationFrom C :=
  fun v hv => absurd hv (h v)

theorem ViolationFrom.ok (a : α) : ViolationFrom C (.ok a) := (NoViolation.ok a).violationFrom

theorem ViolationFrom.error {e : Failure} (he : C.failure e) :
    ViolationFrom C (.error e : Result α) := by
  intro v h
  cases h
  exact he

theorem ViolationFrom.bind {r : Result α} {f : α → Result β} (hr : r.ViolationFrom C)
    (hf : ∀ a, r = .ok a → (f a).ViolationFrom C) : (r >>= f).ViolationFrom C := by
  intro v h
  rcases bind_eq_error.mp h with hfirst | ⟨a, ha, hsecond⟩
  · exact hr v hfirst
  · exact hf a ha v hsecond

end Result

open Result

namespace Schema

variable {s : Schema}

theorem unsupported_noViolation {α : Type} (s : Schema) (method : String) :
    NoViolation (s.unsupported method : Result α) :=
  .error (by simp)

/-- A method for one kind fails as what it goes on with does. -/
theorem requireKind_noViolation {α : Type} {kind : KindTag} {method : String}
    {next : Schema → Result α} (h : NoViolation (next s)) :
    NoViolation (s.requireKind kind method >>= next) := by
  rw [requireKind]
  split
  · exact h
  · exact unsupported_noViolation s method

theorem sorted_noViolation (fields : List (String × Schema)) (excluded : List (String × String)) :
    NoViolation (Shape.sorted fields excluded) := by
  rw [Shape.sorted]
  split
  · exact .ok _
  · exact .error (by simp)

/-! ## Concatenation -/

mutual

theorem concat_noViolation (left : Schema) : ∀ (right : Schema), NoViolation (left.concat right)
  | ⟨kind, conditions, traits⟩ => by
      rw [Schema.concat]
      split
      · exact (concatKind_noViolation left.kind kind).bind fun _ _ => .ok _
      · exact .error (by simp)

theorem concatKind_noViolation (left : Kind Schema) :
    ∀ (right : Kind Schema), NoViolation (concatKind left right)
  | .object ⟨fields, order, excluded⟩ => by
      rw [concatKind.eq_def]
      dsimp only
      split
      · next l =>
          refine (concatFields_noViolation l.fields fields).bind fun merged _ => ?_
          exact (sorted_noViolation merged _).bind fun _ _ => .ok _
      · exact .ok _
  | .array element => by
      rw [concatKind.eq_def]
      dsimp only
      split
      · next l => exact (concatElement_noViolation l element).bind fun _ _ => .ok _
      · exact .ok _
  | .mixed => by
      rw [concatKind.eq_def]
      exact .ok _
  | .string => by
      rw [concatKind.eq_def]
      exact .ok _
  | .number => by
      rw [concatKind.eq_def]
      exact .ok _
  | .boolean => by
      rw [concatKind.eq_def]
      exact .ok _
  | .lazy pick => by
      rw [concatKind.eq_def]
      exact .ok _

theorem concatElement_noViolation (left : Element Schema) :
    ∀ (right : Element Schema), NoViolation (concatElement left right)
  | .of s => by
      rw [concatElement.eq_def]
      dsimp only
      split
      · next l => exact (concat_noViolation l s).bind fun _ _ => .ok _
      · exact .ok _
  | .unset => by
      rw [concatElement.eq_def]
      exact .ok _
  | .disabled => by
      rw [concatElement.eq_def]
      exact .ok _

theorem concatFields_noViolation (left : List (String × Schema)) :
    ∀ (right : List (String × Schema)), NoViolation (concatFields left right)
  | [] => by
      rw [concatFields]
      exact .ok _
  | (key, s) :: rest => by
      rw [concatFields_cons]
      refine NoViolation.bind ?_ fun c _ => concatFields_noViolation _ rest
      split
      · next l _ => exact concat_noViolation l s
      · exact .ok _

end

/-! ## Refinements -/

theorem min_noViolation (s : Schema) (locale : Locale) (bound : Param) :
    NoViolation (s.min locale bound) := by
  rw [Schema.min]
  split
  · exact .ok _
  · exact .ok _
  · exact .ok _
  · exact unsupported_noViolation _ _

theorem max_noViolation (s : Schema) (locale : Locale) (bound : Param) :
    NoViolation (s.max locale bound) := by
  rw [Schema.max]
  split
  · exact .ok _
  · exact .ok _
  · exact .ok _
  · exact unsupported_noViolation _ _

theorem ensure_noViolation (s : Schema) : NoViolation s.ensure := by
  rw [Schema.ensure]
  split
  · exact .ok _
  · exact .ok _
  · exact unsupported_noViolation _ _

theorem round_noViolation (s : Schema) (method : String) : NoViolation (s.round method) := by
  refine requireKind_noViolation ?_
  dsimp only
  split
  · exact .ok _
  · exact .error (by simp)

theorem test_noViolation (s : Schema) (x : Test) : NoViolation (s.test x) := by
  rw [Schema.test]
  split
  · exact .error (by simp)
  · exact .ok _

theorem when_noViolation (s : Schema) (refs : List Reference) (rule : Rule Schema Recipe Step) :
    NoViolation (s.when refs rule) := by
  rw [Schema.when]
  split
  · exact .error (by simp)
  · exact .ok _

theorem shape_noViolation (s : Schema) (fields : List (String × Schema))
    (excluded : List (String × String)) : NoViolation (s.shape fields excluded) := by
  rw [Schema.shape]
  split
  · exact (sorted_noViolation _ _).bind fun _ _ => .ok _
  · exact unsupported_noViolation _ _

end Schema

-- ============================================================================
-- Recipes
-- ============================================================================

namespace Workshop

variable {C : RecipeClass} {w : Workshop} {invoke : Invoke}

theorem testOf_noViolation (w : Workshop) (mark : Option Mark) (source : TestSource) :
    NoViolation (w.testOf mark source) := by
  unfold testOf
  split
  · exact .ok _
  · split
    · exact .ok _
    · exact .error (by simp)

theorem baseSchema_noViolation (w : Workshop) (base : Base) : NoViolation (w.baseSchema base) := by
  cases base <;> rw [baseSchema]
  case named name =>
    split
    · exact .ok _
    · exact .error (by simp)
  all_goals exact .ok _

/-- Whether calls of methods report no violations but those that the class knows of. -/
def Reticent (C : RecipeClass) (invoke : Invoke) : Prop :=
  ∀ s name args mark, ViolationFrom C (invoke s name args mark)

mutual

theorem buildWith_violationFrom (hinvoke : Reticent C invoke) :
    ∀ (r : Recipe) {mark : Option Mark}, C.recipe r → ViolationFrom C (buildWith w invoke mark r)
  | .make base steps, mark, hr => by
      rw [buildWith]
      refine (baseSchema_noViolation w base).violationFrom.bind fun s _ => ?_
      exact takeSteps_violationFrom hinvoke steps (C.step_of_make hr)

theorem takeSteps_violationFrom (hinvoke : Reticent C invoke) : ∀ (steps : List Step)
    {mark : Option Mark} {position : Nat} {s : Schema}, (∀ step ∈ steps, C.step step) →
    ViolationFrom C (takeSteps w invoke mark position s steps)
  | [], mark, position, s, _ => by
      rw [takeSteps]
      exact .ok _
  | step :: rest, mark, position, s, hsteps => by
      rw [takeSteps]
      refine ViolationFrom.bind ?_ fun t _ => ?_
      · exact takeStep_violationFrom hinvoke step (hsteps step List.mem_cons_self)
      · exact takeSteps_violationFrom hinvoke rest
          fun other hother => hsteps other (List.mem_cons_of_mem _ hother)

/-- What one step reports: the steps with recipes inside them what the recipes report, the
    others nothing. -/
theorem takeStep_violationFrom (hinvoke : Reticent C invoke) : ∀ (step : Step)
    {mark : Option Mark} {s : Schema}, C.step step →
    ViolationFrom C (takeStep w invoke mark s step) := by
  intro step mark s hstep
  cases step <;> rw [takeStep]
  case when refs rule =>
    exact (buildRule_violationFrom hinvoke rule hstep).bind
      fun _ _ => (s.when_noViolation _ _).violationFrom
  case concat other =>
    exact (buildWith_violationFrom hinvoke other (C.recipe_of_step hstep .concat)).bind
      fun _ _ => (s.concat_noViolation _).violationFrom
  case shape fields excluded =>
    exact (buildFields_violationFrom hinvoke fields
      fun f hf => C.recipe_of_step hstep (.field hf)).bind
      fun _ _ => (s.shape_noViolation _ _).violationFrom
  case element r =>
    refine (buildWith_violationFrom hinvoke r (C.recipe_of_step hstep .element)).bind
      fun _ _ => NoViolation.violationFrom ?_
    exact Schema.requireKind_noViolation (.ok _)
  case apply method args => exact hinvoke s method args mark
  case test source =>
    exact ((w.testOf_noViolation mark source).bind fun _ _ => s.test_noViolation _).violationFrom
  case min => exact (s.min_noViolation _ _).violationFrom
  case max => exact (s.max_noViolation _ _).violationFrom
  case ensure => exact s.ensure_noViolation.violationFrom
  case round => exact (s.round_noViolation _).violationFrom
  case label | metadata | fallback | nullable | strict | strip | options | required |
      notRequired | transform | withMessage | typeError | oneOf | notOneOf =>
    exact .ok _
  all_goals
    refine NoViolation.violationFrom ?_
    exact Schema.requireKind_noViolation (.ok _)

theorem buildFields_violationFrom (hinvoke : Reticent C invoke) :
    ∀ (fields : List (String × Recipe)) {mark : Option Mark} {position : Nat},
    (∀ f ∈ fields, C.recipe f.2) → ViolationFrom C (buildFields w invoke mark position fields)
  | [], mark, position, _ => by
      rw [buildFields]
      exact .ok _
  | (key, r) :: rest, mark, position, hfields => by
      rw [buildFields]
      refine ViolationFrom.bind ?_ fun s _ => ViolationFrom.bind ?_ fun _ _ => .ok _
      · exact buildWith_violationFrom hinvoke r (hfields _ List.mem_cons_self)
      · exact buildFields_violationFrom hinvoke rest
          fun f hf => hfields f (List.mem_cons_of_mem _ hf)

theorem buildRule_violationFrom (hinvoke : Reticent C invoke) :
    ∀ (rule : Rule Recipe Recipe Step) {mark : Option Mark} {refs : List Reference},
    C.step (.when refs rule) → ViolationFrom C (buildRule w invoke mark rule)
  | .guarded guard yes no, mark, refs, hstep => by
      rw [buildRule]
      refine ViolationFrom.bind ?_ fun _ _ => ViolationFrom.bind ?_ fun _ _ => .ok _
      · exact buildBranch_violationFrom hinvoke yes fun r hr => C.recipe_of_step hstep (hr ▸ .yes)
      · exact buildBranch_violationFrom hinvoke no fun r hr => C.recipe_of_step hstep (hr ▸ .no)
  | .resolver choose, mark, refs, _ => by
      rw [buildRule]
      exact .ok _

theorem buildBranch_violationFrom (hinvoke : Reticent C invoke) :
    ∀ (branch : Option (Branch Recipe Recipe Step)) {mark : Option Mark},
    (∀ r, branch = some (.join r) → C.recipe r) →
    ViolationFrom C (buildBranch w invoke mark branch)
  | none, mark, _ => by
      rw [buildBranch]
      exact .ok _
  | some (.join r), mark, hr => by
      rw [buildBranch]
      exact (buildWith_violationFrom hinvoke r (hr r rfl)).bind fun _ _ => .ok _
  | some (.map decide), mark, _ => by
      rw [buildBranch]
      exact .ok _

end

theorem carryOut_violationFrom (hinvoke : Reticent C invoke) {mark : Option Mark} {s : Schema}
    {choice : Choice Recipe Step} (h : C.choice choice) :
    ViolationFrom C (w.carryOut invoke mark s choice) := by
  cases choice with
  | fail e => exact .error h
  | refine steps => exact takeSteps_violationFrom hinvoke steps h
  | replace r => exact buildWith_violationFrom hinvoke r h

theorem reticent_invoke (hw : w.Equipped C) (depth : Nat) : Reticent C (w.invoke depth) := by
  induction depth with
  | zero =>
      intro s name args mark
      exact (NoViolation.error (by simp)).violationFrom
  | succ depth ih =>
      intro s name args mark
      rw [invoke, Registry.apply]
      split
      · next method hmethod =>
          exact carryOut_violationFrom ih (hw.methods s.tag name method s.view args hmethod)
      · exact (NoViolation.error (by simp)).violationFrom

theorem build_violationFrom (hw : w.Equipped C) {mark : Option Mark} {r : Recipe}
    (hr : C.recipe r) : ViolationFrom C (w.build mark r) :=
  buildWith_violationFrom (reticent_invoke hw depthLimit) r hr

theorem decided_violationFrom (hw : w.Equipped C) {mark : Option Mark} {s : Schema}
    {choice : Choice Recipe Step} (h : C.choice choice) :
    ViolationFrom C (w.decided mark s choice) :=
  carryOut_violationFrom (reticent_invoke hw depthLimit) h

-- ============================================================================
-- Resolution
-- ============================================================================

theorem takeRule_violationFrom (hw : w.Equipped C) {mark : Option Mark} {base : Schema}
    {values : List (Option Value)} {rule : Rule Schema Recipe Step} (h : C.rule rule) :
    ViolationFrom C (w.takeRule mark base values rule) := by
  have hbranch : ∀ branch, (∀ decide, branch = some (.map decide) →
      ∀ view, C.choice (decide view)) → ViolationFrom C (w.takeBranch mark base branch) := by
    intro branch hdecide
    unfold takeBranch
    split
    · exact .ok _
    · exact (base.concat_noViolation _).violationFrom
    · exact decided_violationFrom hw (hdecide _ rfl base.view)
  unfold takeRule
  split
  · refine hbranch _ fun decide hdecide view => ?_
    split at hdecide
    · exact h _ (hdecide ▸ .yes view)
    · exact h _ (hdecide ▸ .no view)
  · exact decided_violationFrom hw (h _ (.chosen values base.view))

theorem takeConditions_violationFrom (hw : w.Equipped C) {mark : Option Mark} {position : Nat}
    {parent context : Option Value} {conditions : List (Condition Schema)} {s : Schema}
    (h : ∀ c ∈ conditions, C.rule c.rule) :
    ViolationFrom C (w.takeConditions mark position parent context s conditions) := by
  induction conditions generalizing s position with
  | nil => exact .ok _
  | cons c rest ih =>
      rw [takeConditions]
      exact (takeRule_violationFrom hw (h c List.mem_cons_self)).bind
        fun _ _ => ih fun other hother => h other (List.mem_cons_of_mem _ hother)

/-- A violation that ends the resolution of a schema was given by a lazy schema or by a
    condition. -/
theorem resolve_violationFrom (hw : w.Equipped C) {s : Schema} (hs : s.WellMade C)
    (value : Option Value) (options : CallOptions) :
    ViolationFrom C (w.resolve s value options) := by
  have hwithin : ∀ depth {s : Schema}, s.WellMade C →
      ViolationFrom C (w.resolveWithin depth s value options) := by
    intro depth
    induction depth with
    | zero => exact fun _ => (NoViolation.error (by simp)).violationFrom
    | succ depth ih =>
        intro s hs
        rw [resolveWithin]
        split
        · next pick hkind =>
            have hpick := hs.here.pick pick hkind
            refine ViolationFrom.bind (fun v hv => C.failure_of_pick hpick hv) fun r hr => ?_
            have hrecipe := C.recipe_of_pick hpick hr
            exact (build_violationFrom hw hrecipe).bind
              fun made hmade => ih (build_wellMade hw hrecipe hmade)
        · exact (takeConditions_violationFrom hw hs.here.rules).bind fun _ _ => .ok _
  exact hwithin depthLimit hs

end Workshop

end Conform
