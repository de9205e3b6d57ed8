/-
  Conform.Proofs.Schema.Resolution

  What resolution leaves. A resolved schema has no conditions, and unless it is lazy
  it resolves to itself. Lazy schemas are made before the conditions are carried out
  and not behind them, so a resolved schema is lazy only if a condition brings in a
  lazy one: by the schema of a branch, by a step, or in place of the schema itself.
-/

import Conform.Proofs.Schema.Building

namespace Conform

-- ============================================================================
-- Where lazy schemas come from
-- ============================================================================

mutual

/-- Whether a step concatenates a lazy schema, or calls a method that may bring one in. -/
inductive Step.BringsLazy (w : Workshop) : Step → Prop where
  | concat {depth : Nat} {mark : Option Mark} {r : Recipe} {s : Schema} :
      w.buildWith (w.invoke depth) mark r = .ok s → s.tag = .lazy →
      Step.BringsLazy w (.concat r)
  | apply {kind : KindTag} {name : String} {method : Method} {view : NodeView}
      {args : List Value} :
      w.registry.method? kind name = some method → Choice.BringsLazy w (method view args) →
      Step.BringsLazy w (.apply name args)

/-- Whether a choice takes such a step, or puts a lazy schema in place of another one. -/
inductive Choice.BringsLazy (w : Workshop) : Choice Recipe Step → Prop where
  | refine {steps : List Step} {step : Step} :
      step ∈ steps → Step.BringsLazy w step → Choice.BringsLazy w (.refine steps)
  | replace {depth : Nat} {mark : Option Mark} {r : Recipe} {t : Schema} :
      w.buildWith (w.invoke depth) mark r = .ok t → t.tag = .lazy →
      Choice.BringsLazy w (.replace r)

end

/-- Whether a rule has a branch with a lazy schema, or may come to a choice that brings
    one in. -/
inductive Rule.BringsLazy (w : Workshop) (rule : Rule Schema Recipe Step) : Prop where
  | joined {t : Schema} : t ∈ rule.joined → t.tag = .lazy → BringsLazy w rule
  | decided {c : Choice Recipe Step} : rule.HasChoice c → c.BringsLazy w → BringsLazy w rule

namespace Schema

variable {a b c s t : Schema}

/-- A concatenation is lazy only if a side is. -/
theorem tag_lazy_of_concat (h : a.concat b = .ok c) (hc : c.tag = .lazy) :
    a.tag = .lazy ∨ b.tag = .lazy := by
  obtain ⟨kind, hkind, rfl⟩ := concat_eq h
  have hlazy : kind.tag = .lazy := hc
  rcases concatKind_cases hkind with heq | heq | ⟨_, _, _, shape, _, _, _, heq⟩ | ⟨element, heq⟩
  · left
    rwa [heq] at hlazy
  · right
    rwa [heq] at hlazy
  · exact absurd (heq ▸ hlazy) (by simp [Kind.tag])
  · exact absurd (heq ▸ hlazy) (by simp [Kind.tag])

theorem tag_of_when {refs : List Reference} {rule : Rule Schema Recipe Step}
    (h : s.when refs rule = .ok t) : t.tag = s.tag := by
  rw [Schema.when] at h
  split at h
  · exact absurd h (by simp)
  · cases h
    rfl

theorem tag_of_shape {fields : List (String × Schema)} {excluded : List (String × String)}
    (h : s.shape fields excluded = .ok t) : t.tag = .object := by
  rw [Schema.shape] at h
  split at h
  · obtain ⟨shape, -, h⟩ := bind_eq_ok.mp h
    cases h
    rfl
  · exact absurd h (by simp [unsupported])

theorem tag_of_of {element : Schema} (h : s.of element = .ok t) : t.tag = .array := by
  obtain ⟨-, h⟩ := requireKind_bind h
  cases h
  rfl

theorem tag_of_withoutElement (h : s.withoutElement = .ok t) : t.tag = .array := by
  obtain ⟨-, h⟩ := requireKind_bind h
  cases h
  rfl

theorem tag_of_edited {C : RecipeClass} (h : Edited C s t) : t.tag = s.tag := by
  rw [tag, tag, h.kind_eq.1]

end Schema

namespace Workshop

variable {w : Workshop} {s t u r : Schema} {value : Option Value} {options : CallOptions}

/-- Whether calls of methods make a schema lazy only by what brings in a lazy one. -/
def LazyBySteps (w : Workshop) (invoke : Invoke) : Prop :=
  ∀ s name args mark t, invoke s name args mark = .ok t → t.tag = .lazy →
    s.tag = .lazy ∨ (Step.apply name args).BringsLazy w

theorem takeStep_lazy {depth : Nat} (hinvoke : w.LazyBySteps (w.invoke depth)) {mark : Option Mark}
    {step : Step} (h : takeStep w (w.invoke depth) mark s step = .ok t) (ht : t.tag = .lazy) :
    s.tag = .lazy ∨ step.BringsLazy w := by
  cases step with
  | when refs rule =>
      rw [takeStep] at h
      obtain ⟨built, -, h⟩ := bind_eq_ok.mp h
      exact Or.inl (Schema.tag_of_when h ▸ ht)
  | concat other =>
      rw [takeStep] at h
      obtain ⟨built, hbuilt, h⟩ := bind_eq_ok.mp h
      exact (Schema.tag_lazy_of_concat h ht).imp_right fun hlazy => .concat hbuilt hlazy
  | shape fields excluded =>
      rw [takeStep] at h
      obtain ⟨built, -, h⟩ := bind_eq_ok.mp h
      exact absurd (Schema.tag_of_shape h ▸ ht) (by simp)
  | element r =>
      rw [takeStep] at h
      obtain ⟨built, -, h⟩ := bind_eq_ok.mp h
      exact absurd (Schema.tag_of_of h ▸ ht) (by simp)
  | withoutElement =>
      rw [takeStep] at h
      exact absurd (Schema.tag_of_withoutElement h ▸ ht) (by simp)
  | apply method args =>
      rw [takeStep] at h
      exact hinvoke s method args mark t h ht
  | _ =>
      -- the other steps change nothing but traits
      have hedited := takeStep_edited (C := .all) (fun _ _ _ => trivial) trivial rfl h
      exact Or.inl (Schema.tag_of_edited hedited ▸ ht)

theorem takeSteps_lazy {depth : Nat} (hinvoke : w.LazyBySteps (w.invoke depth))
    {steps : List Step} {mark : Option Mark} {position : Nat}
    (h : takeSteps w (w.invoke depth) mark position s steps = .ok t) (ht : t.tag = .lazy) :
    s.tag = .lazy ∨ ∃ step ∈ steps, step.BringsLazy w := by
  induction steps generalizing s position with
  | nil =>
      rw [takeSteps] at h
      cases h
      exact Or.inl ht
  | cons step rest ih =>
      rw [takeSteps] at h
      obtain ⟨between, hbetween, h⟩ := bind_eq_ok.mp h
      rcases ih h with hlazy | ⟨later, hmem, hlater⟩
      · exact (takeStep_lazy hinvoke hbetween hlazy).imp_right
          fun hstep => ⟨step, List.mem_cons_self, hstep⟩
      · exact Or.inr ⟨later, List.mem_cons_of_mem _ hmem, hlater⟩

theorem carryOut_lazy {depth : Nat} (hinvoke : w.LazyBySteps (w.invoke depth))
    {mark : Option Mark} {choice : Choice Recipe Step}
    (h : w.carryOut (w.invoke depth) mark s choice = .ok t) (ht : t.tag = .lazy) :
    s.tag = .lazy ∨ choice.BringsLazy w := by
  cases choice with
  | fail e => exact absurd h (by simp [carryOut])
  | refine steps =>
      refine (takeSteps_lazy hinvoke h ht).imp_right ?_
      rintro ⟨step, hmem, hstep⟩
      exact .refine hmem hstep
  | replace r => exact Or.inr (.replace h ht)

theorem lazyBySteps_invoke (depth : Nat) : w.LazyBySteps (w.invoke depth) := by
  induction depth with
  | zero =>
      intro s name args mark t h _
      exact absurd h (by simp [invoke])
  | succ depth ih =>
      intro s name args mark t h ht
      rw [invoke, Registry.apply] at h
      split at h
      · next method hmethod =>
          exact (carryOut_lazy ih h ht).imp_right fun hchoice => .apply hmethod hchoice
      · exact absurd h (by simp)

theorem decided_lazy {mark : Option Mark} {choice : Choice Recipe Step}
    (h : w.decided mark s choice = .ok t) (ht : t.tag = .lazy) :
    s.tag = .lazy ∨ choice.BringsLazy w :=
  carryOut_lazy (lazyBySteps_invoke depthLimit) h ht

/-! ## Conditions -/

theorem takeBranch_lazy {mark : Option Mark} {branch : Option (Branch Schema Recipe Step)}
    (h : w.takeBranch mark s branch = .ok t) (ht : t.tag = .lazy) :
    s.tag = .lazy ∨ (∃ u, branch = some (.join u) ∧ u.tag = .lazy) ∨
      ∃ decide, branch = some (.map decide) ∧ (decide s.view).BringsLazy w := by
  unfold takeBranch at h
  split at h
  · cases h
    exact Or.inl ht
  · exact (Schema.tag_lazy_of_concat h ht).imp_right fun hu => Or.inl ⟨_, rfl, hu⟩
  · exact (decided_lazy h ht).imp_right fun hdecided => Or.inr ⟨_, rfl, hdecided⟩

theorem takeRule_lazy {mark : Option Mark} {rule : Rule Schema Recipe Step}
    {values : List (Option Value)} (h : w.takeRule mark s values rule = .ok t)
    (ht : t.tag = .lazy) : s.tag = .lazy ∨ rule.BringsLazy w := by
  cases rule with
  | guarded guard yes no =>
      rw [takeRule] at h
      split at h
      · rcases takeBranch_lazy h ht with hs | ⟨u, rfl, hu⟩ | ⟨decide, rfl, hdecided⟩
        · exact Or.inl hs
        · exact Or.inr (.joined (t := u) (by simp [Rule.joined]) hu)
        · exact Or.inr (.decided (.yes s.view) hdecided)
      · rcases takeBranch_lazy h ht with hs | ⟨u, rfl, hu⟩ | ⟨decide, rfl, hdecided⟩
        · exact Or.inl hs
        · exact Or.inr (.joined (t := u) (by simp [Rule.joined]) hu)
        · exact Or.inr (.decided (.no s.view) hdecided)
  | resolver choose =>
      rw [takeRule] at h
      exact (decided_lazy h ht).imp_right fun hdecided => .decided (.chosen values s.view) hdecided

theorem takeConditions_lazy {mark : Option Mark} {position : Nat}
    {parent context : Option Value} {conditions : List (Condition Schema)}
    (h : w.takeConditions mark position parent context s conditions = .ok t) (ht : t.tag = .lazy) :
    s.tag = .lazy ∨ ∃ c ∈ conditions, c.rule.BringsLazy w := by
  induction conditions generalizing s position with
  | nil =>
      cases h
      exact Or.inl ht
  | cons c rest ih =>
      rw [takeConditions] at h
      obtain ⟨between, hbetween, h⟩ := bind_eq_ok.mp h
      rcases ih h with hlazy | ⟨later, hmem, hlater⟩
      · exact (takeRule_lazy hbetween hlazy).imp_right fun hc => ⟨c, List.mem_cons_self, hc⟩
      · exact Or.inr ⟨later, List.mem_cons_of_mem _ hmem, hlater⟩

-- ============================================================================
-- Resolved schemas
-- ============================================================================

/-- The schema whose conditions are carried out for a value: the schema itself, or
    what a lazy schema makes for the value, as often as that is lazy again. -/
inductive Unfolds (w : Workshop) (value : Option Value) (options : CallOptions) :
    Schema → Schema → Prop where
  | here {s : Schema} : s.tag ≠ .lazy → Unfolds w value options s s
  | made {s t u : Schema} {pick : Pick} {r : Recipe} {mark : Option Mark} :
      s.kind = .lazy pick → pick value options = .ok r → w.build mark r = .ok t →
      Unfolds w value options t u → Unfolds w value options s u

/-- A resolved schema is what the conditions of the unfolded one make of it. -/
theorem resolveWithin_eq_ok {depth : Nat} (h : w.resolveWithin depth s value options = .ok r) :
    ∃ u t mark, w.Unfolds value options s u ∧
      w.takeConditions mark 0 options.parent options.context u.clearConditions u.conditions =
        .ok t ∧ r = t.clearConditions := by
  induction depth generalizing s with
  | zero => exact absurd h (by simp [resolveWithin])
  | succ depth ih =>
      rw [resolveWithin] at h
      split at h
      · next pick hkind =>
          obtain ⟨recipe, hpick, h⟩ := bind_eq_ok.mp h
          obtain ⟨made, hmade, h⟩ := bind_eq_ok.mp h
          obtain ⟨u, t, mark, hu, ht, hr⟩ := ih h
          exact ⟨u, t, mark, .made hkind hpick hmade hu, ht, hr⟩
      · next hnot =>
          obtain ⟨t, ht, h⟩ := bind_eq_ok.mp h
          cases h
          refine ⟨s, t, _, .here ?_, ht, rfl⟩
          intro htag
          rw [Schema.tag] at htag
          cases hkind : s.kind <;> rw [hkind] at htag <;> simp [Kind.tag] at htag
          exact hnot _ hkind

theorem Unfolds.tag_ne (h : w.Unfolds value options s u) : u.tag ≠ .lazy := by
  induction h with
  | here hs => exact hs
  | made _ _ _ _ ih => exact ih

/-- The place of the conditions of a schema that is not made on the way. -/
def conditionsMark (w : Workshop) : Option Mark := part w.evaluation (depthLimit - 1)

/-- A schema that is not lazy is resolved by its conditions. -/
theorem resolve_eager {s : Schema} (hlazy : ∀ pick, s.kind ≠ .lazy pick) (value : Option Value)
    (options : CallOptions) :
    w.resolve s value options =
      w.takeConditions w.conditionsMark 0 options.parent options.context s.clearConditions
        s.conditions >>= fun t => .ok t.clearConditions := by
  rw [resolve, depthLimit, resolveWithin]
  split
  · next pick hkind => exact absurd hkind (hlazy pick)
  · rfl

/-- A schema without conditions resolves to itself. -/
theorem resolve_self {s : Schema} (hlazy : ∀ pick, s.kind ≠ .lazy pick)
    (hconditions : s.conditions = []) (value : Option Value) (options : CallOptions) :
    w.resolve s value options = .ok s := by
  rw [resolve_eager hlazy, hconditions]
  obtain ⟨kind, conditions, traits⟩ := s
  cases hconditions
  rfl

/-- Every value is of the type of a lazy schema. -/
theorem isType_of_tag_lazy (h : s.tag = .lazy) (v : Value) : s.isType v = true := by
  simp [Schema.isType, NodeView.isType, Schema.view, h, KindTag.fits]

/-- A resolved schema has no conditions. It resolves to itself unless it is lazy, and
    it is lazy only if one of the conditions may bring in a lazy schema; that is not
    made any more, and refuses no value. -/
theorem resolve_complete (h : w.resolve s value options = .ok r) :
    r.conditions = [] ∧
    (r.tag ≠ .lazy → ∀ other options', w.resolve r other options' = .ok r) ∧
    (r.tag = .lazy → (∀ v, r.isType v = true) ∧ ∃ u, w.Unfolds value options s u ∧
      ∃ c ∈ u.conditions, c.rule.BringsLazy w) := by
  obtain ⟨u, t, mark, hu, ht, rfl⟩ := resolveWithin_eq_ok h
  refine ⟨rfl, fun htag => resolve_self (fun pick hkind => ?_) rfl, fun htag =>
    ⟨isType_of_tag_lazy htag, u, hu, ?_⟩⟩
  · exact htag (congrArg Kind.tag hkind)
  · have hlazy : t.tag = .lazy := htag
    exact (takeConditions_lazy ht hlazy).resolve_left hu.tag_ne

/-- A schema that gives way to a lazy one where a flag is given. -/
def lazyWhereFlagged : Recipe :=
  .make .mixed [.when [Reference.ofKey "flag"] (.resolver fun values _ =>
    if values.all Option.isSome then .replace (.plain (.lazy fun _ _ => .ok (.plain .number)))
    else .refine [])]

/-- Where no flag is given, the schema resolves to one that resolves to itself; where
    one is, a lazy schema is left, and a text is of its type. -/
theorem resolve_complete_or_lazy :
    ∃ s r r', initial.build none lazyWhereFlagged = .ok s ∧
      initial.resolve s (some (.str "abc")) { CallOptions.none with parent := some (.obj []) } =
        .ok r ∧
      (∀ other options', initial.resolve r other options' = .ok r) ∧
      initial.resolve s (some (.str "abc"))
        { CallOptions.none with parent := some (.obj [("flag", .str "on")]) } = .ok r' ∧
      r'.tag = .lazy ∧ r'.isType (.str "abc") = true ∧
      ∃ u, initial.Unfolds (some (.str "abc"))
        { CallOptions.none with parent := some (.obj [("flag", .str "on")]) } s u ∧
        ∃ c ∈ u.conditions, c.rule.BringsLazy initial := by
  obtain ⟨s, r, r', hs, hr, hr', hmixed, hlazy⟩ :
      ∃ s r r', initial.build none lazyWhereFlagged = .ok s ∧
        initial.resolve s (some (.str "abc")) { CallOptions.none with parent := some (.obj []) } =
          .ok r ∧
        initial.resolve s (some (.str "abc"))
          { CallOptions.none with parent := some (.obj [("flag", .str "on")]) } = .ok r' ∧
        r.tag = .mixed ∧ r'.tag = .lazy :=
    ⟨_, _, _, rfl, rfl, rfl, rfl, rfl⟩
  obtain ⟨-, hsettled, -⟩ := resolve_complete hr
  obtain ⟨-, -, hbrought⟩ := resolve_complete hr'
  obtain ⟨htype, hcondition⟩ := hbrought hlazy
  exact ⟨s, r, r', hs, hr, hsettled (by simp [hmixed]), hr', hlazy, htype _, hcondition⟩

end Workshop

-- ============================================================================
-- Schemas that stand as they are
-- ============================================================================

namespace Schema

/-- Whether a schema is worked on as it stands: it is not lazy and has no conditions. -/
structure Fixed (s : Schema) : Prop where
  eager : ∀ pick, s.kind ≠ .lazy pick
  unconditional : s.conditions = []

theorem Fixed.resolve {s : Schema} (h : s.Fixed) (w : Workshop) (value : Option Value)
    (options : CallOptions) : w.resolve s value options = .ok s :=
  Workshop.resolve_self h.eager h.unconditional value options

end Schema

end Conform
