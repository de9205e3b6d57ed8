/-
  Conform.Proofs.Validation.Surfacing

  Mistakes surface when all violations are collected. A test that is pending, or a
  schema that does not resolve, ends the call as a mistake, wherever it is come to and
  whatever violations are found beside it: on the way of the cast at once, and on the
  way of the validation through the report of every node above. Where a function of the
  caller gives a violation in place of a schema, that is no mistake, and keeps the value
  from being accepted.
-/

import Conform.Proofs.Schema.Mistakes
import Conform.Proofs.Schema.Obtained
import Conform.Proofs.Validation.Invocation

namespace Conform

-- ============================================================================
-- Runs
-- ============================================================================

namespace Node

variable {w : Workshop} {n : Node} {validatePart : ValidatePart}

/-- Tests that are collected without a mistake are not waited for. -/
theorem wait_of_ownPolicy (habort : n.mode.abortEarly = false) {tests : List Test}
    (h : ¬ (n.ownPolicy.run (tests.map fun x => x.run true n.subject)).result.IsMistake) :
    ∀ x ∈ tests, (x.outcome n.subject).isPending = false := by
  intro x hx
  cases hpending : (x.outcome n.subject).isPending with
  | false => rfl
  | true =>
      rw [Policy.run_of_collects habort] at h
      have hmem : x.run true n.subject ∈ tests.map fun x => x.run true n.subject :=
        List.mem_map_of_mem hx
      exact absurd (Policy.collected_isMistake hmem (Test.run_isMistake.mpr hpending)) h

/-- Own checks that are collected without a mistake are not waited for. -/
theorem wait_of_own (habort : n.mode.abortEarly = false) (h : ¬ (n.own true).result.IsMistake) :
    ∀ x ∈ n.invoked, (x.outcome n.subject).isPending = false := by
  rw [own_eq, Job.bind_result] at h
  have hpre : ∀ x ∈ n.schema.traits.prerequisites, (x.outcome n.subject).isPending = false := by
    refine wait_of_ownPolicy habort fun hmistake => h ?_
    obtain ⟨e, he, hne⟩ := hmistake
    refine ⟨e, ?_, hne⟩
    rw [prerequisiteJobs, he]
    rfl
  intro x hx
  rcases List.mem_append.mp hx with hfirst | hsecond
  · exact hpre x hfirst
  · split at hsecond
    · next hnil =>
        have hresult := ownPolicy_run habort hpre
        rw [if_pos hnil] at hresult
        rw [prerequisiteJobs, hresult] at h
        exact wait_of_ownPolicy habort h x hsecond
    · exact absurd hsecond (by simp)

/-- A run that is collected without a mistake waits for no test and comes to no
    part that is a mistake. -/
theorem wait_of_run (hshape : ∀ shape, n.schema.kind = .object shape → shape.Ordered)
    (habort : n.mode.abortEarly = false) (h : ¬ (n.run true validatePart).result.IsMistake) :
    (∀ x ∈ n.invoked, (x.outcome n.subject).isPending = false) ∧
      ∀ p ∈ n.parts, ¬ (p.job validatePart).result.IsMistake := by
  have hown : ¬ (n.own true).result.IsMistake := by
    rintro ⟨e, he, hne⟩
    refine h ⟨e, ?_, hne⟩
    exact run_of_own_error he fun ⟨v, hv⟩ => absurd hv (hne v)
  refine ⟨wait_of_own habort hown, fun p hp hmistake => ?_⟩
  have hcomposite : n.schema.tag.isComposite = true := by
    cases hc : n.schema.tag.isComposite with
    | true => rfl
    | false => exact absurd (parts_of_not_isComposite hc ▸ hp) (by simp)
  have hcollects : n.collects = true := by simp [collects, hcomposite, habort]
  have hrun : ∃ found, (n.run true validatePart).result = (n.partsJob validatePart found).result := by
    rcases n.run_cases true validatePart with ⟨-, hrun⟩ | ⟨v, -, -, hrun⟩ | ⟨e, he, hends, -⟩
    · exact ⟨[], hrun⟩
    · exact ⟨[v], hrun⟩
    · -- the own checks end with no mistake, and a violation would be carried on
      refine absurd ⟨e, he, fun v hv => ?_⟩ hown
      exact absurd hcollects (by simp [hends ⟨v, hv⟩])
  obtain ⟨found, hfound⟩ := hrun
  rw [hfound, partsJob] at h
  rcases n.validateParts_eq hshape with ⟨hnone, -⟩ | ⟨plan, -, hplan⟩
  · exact absurd (hnone ▸ hp) (by simp)
  · rw [hplan, Job.bind_result, Policy.run_of_collects habort] at h
    have hjob : (p.job validatePart).discard ∈ plan.jobs validatePart :=
      List.mem_map_of_mem (plan.perm.mem_iff.mpr hp)
    have hdiscard : (p.job validatePart).discard.result.IsMistake := by
      obtain ⟨e, he, hne⟩ := hmistake
      exact ⟨e, Job.discard_result_eq_error.mpr he, hne⟩
    obtain ⟨e, he, hne⟩ := Policy.collected_isMistake (p := plan.policy found) hjob hdiscard
    refine h ⟨e, ?_, hne⟩
    rw [he]
    rfl

end Node

namespace Workshop

variable {w : Workshop}

/-- Where a run is collected without a mistake, every node that it comes to waits
    for no test, and the resolution of no part is a mistake. -/
theorem wait_of_visits {C : RecipeClass} (hw : w.Equipped C) {n m : Node} (hm : n.Visits w m)
    {depth : Nat} (hn : n.schema.WellMade C) (hdepth : Value.heightOf n.value ≤ depth)
    (habort : n.options.abortEarly = some false)
    (h : ¬ (n.run true (w.validateWithin true depth)).result.IsMistake) :
    (∀ x ∈ m.invoked, (x.outcome m.subject).isPending = false) ∧
      ∀ p ∈ m.parts, ¬ (w.resolve p.schema p.value p.options).IsMistake := by
  have hpart : ∀ {n : Node} {depth : Nat} {p : Part}, p ∈ n.parts →
      Value.heightOf n.value ≤ depth → ¬ (p.job (w.validateWithin true depth)).result.IsMistake →
      ¬ (w.resolve p.schema p.value p.options).IsMistake ∧
        ∀ t, w.resolve p.schema p.value p.options = .ok t → ∃ below, depth = below + 1 ∧
          ¬ ((p.node t).run true (w.validateWithin true below)).result.IsMistake := by
    intro n depth p hp hdepth hjob
    have hlt := Node.heightOf_part hp
    obtain ⟨below, rfl⟩ : ∃ below, depth = below + 1 := ⟨depth - 1, by omega⟩
    rw [part_result (Node.strict_part hp)] at hjob
    refine ⟨?_, fun t ht => ⟨below, rfl, ?_⟩⟩
    · rintro ⟨e, he, hne⟩
      rw [he] at hjob
      exact hjob ⟨e, rfl, hne⟩
    · rw [ht] at hjob
      exact hjob
  induction hm generalizing depth with
  | @here n =>
      have hmode := Node.mode_abortEarly habort
      obtain ⟨hwait, hparts⟩ := Node.wait_of_run hn.here.shape hmode h
      exact ⟨hwait, fun p hp => (hpart hp hdepth (hparts p hp)).1⟩
  | @part n m p t hp ht _ ih =>
      have hmode := Node.mode_abortEarly habort
      obtain ⟨-, hparts⟩ := Node.wait_of_run hn.here.shape hmode h
      obtain ⟨-, hresolved⟩ := hpart hp hdepth (hparts p hp)
      obtain ⟨below, rfl, hrun⟩ := hresolved t ht
      have hlt := Node.heightOf_part hp
      refine ih (resolve_wellMade hw (Node.everywhere_part hn hp) ht) ?_ ?_ hrun
      · show Value.heightOf p.value ≤ below
        omega
      · exact (Node.abortEarly_part hp).trans habort

-- ============================================================================
-- Casts
-- ============================================================================

variable {castPart : CastPart} {validating : Bool} {s : Schema} {raw : Option Value}
  {options : CallOptions} {a : Evaluation} {e : Failure}

theorem castItems_of_fails {element : Schema} {before after done : List Value} {item : Value}
    {position : Nat} (hbefore : w.castItems castPart element options position before = .ok done)
    (hfails : (w.resolve element (some item) (options.forItem (position + before.length)) >>= fun t =>
      castPart t (some item) (options.forItem (position + before.length))) = .error e) :
    w.castItems castPart element options position (before ++ item :: after) = .error e := by
  induction before generalizing position done with
  | nil =>
      rw [List.nil_append, castItems]
      rcases bind_eq_error.mp hfails with hresolve | ⟨t, ht, hcast⟩
      · exact bind_eq_error.mpr (Or.inl hresolve)
      · exact bind_eq_error.mpr (Or.inr ⟨t, ht, bind_eq_error.mpr (Or.inl hcast)⟩)
  | cons first rest ih =>
      rw [castItems] at hbefore
      obtain ⟨t, ht, hbefore⟩ := bind_eq_ok.mp hbefore
      obtain ⟨v, hv, hbefore⟩ := bind_eq_ok.mp hbefore
      obtain ⟨others, hothers, -⟩ := bind_eq_ok.mp hbefore
      have hposition : position + (first :: rest).length = position + 1 + rest.length := by
        rw [List.length_cons]
        omega
      rw [hposition] at hfails
      rw [List.cons_append, castItems]
      refine bind_eq_error.mpr (Or.inr ⟨t, ht, bind_eq_error.mpr (Or.inr ⟨v, hv, ?_⟩)⟩)
      exact bind_eq_error.mpr (Or.inl (ih hothers hfails))

/-- A part that fails fails the cast that comes to it. -/
theorem castNode_of_partFails (ha : w.CastsNext castPart validating s raw options a)
    (h : w.PartFails castPart validating s a e) :
    w.castNode castPart validating s raw options = .error e := by
  cases ha with
  | @field shape _ hkind hpart =>
      cases hpart with
      | item hkind' _ _ => exact absurd (hkind.symm.trans hkind') (by simp)
      | @field shape' input done before rest key field hkind' hinput horder hdone hfield =>
          have htag : s.tag = .object := congrArg Kind.tag hkind
          have hcast : w.castField castPart validating options done key field
              (Dict.get? input key) = .error e := by
            rw [castField]
            rcases h with hresolve | ⟨t, ht, hon, hcast⟩
            · exact bind_eq_error.mpr (Or.inl hresolve)
            · obtain ⟨hstripped, hstrict⟩ := hon htag
              refine bind_eq_error.mpr (Or.inr ⟨t, ht, ?_⟩)
              rw [hstripped, hstrict]
              exact hcast
          have hkey : w.castKey castPart validating options shape'.fields
              (!options.dropsUnknown s) input done key = .error e := by
            rw [castKey, hfield]
            exact bind_eq_error.mpr (Or.inl hcast)
          have hfold : shape'.order.foldlM (w.castKey castPart validating options shape'.fields
              (!options.dropsUnknown s) input) [] = .error e := by
            rw [horder]
            exact foldlM_of_step_error hdone hkey
          rw [castNode, hinput]
          dsimp only
          rw [castParts_object hkind', castFields]
          exact bind_eq_error.mpr (Or.inl (bind_eq_error.mpr (Or.inl hfold)))
  | @item element before after done item hkind hinput hdone =>
      have hposition : 0 + before.length = before.length := by omega
      have hitems : w.castItems castPart element options 0 (before ++ item :: after) =
          .error e := by
        refine castItems_of_fails hdone ?_
        rw [hposition]
        rcases h with hresolve | ⟨t, ht, -, hcast⟩
        · exact bind_eq_error.mpr (Or.inl hresolve)
        · exact bind_eq_error.mpr (Or.inr ⟨t, ht, hcast⟩)
      rw [castNode, hinput]
      dsimp only
      rw [castParts_array hkind]
      exact bind_eq_error.mpr (Or.inl (bind_eq_error.mpr (Or.inl hitems)))

/-- Whether the cast of a value with a resolved schema resolves the schema of a part, at
    any depth. -/
inductive CastResolves (w : Workshop) :
    Nat → Bool → Schema → Option Value → CallOptions → Evaluation → Prop where
  | here {depth : Nat} {validating : Bool} {s : Schema} {raw : Option Value}
      {options : CallOptions} {a : Evaluation} :
      w.CastsNext (w.castWithin depth) validating s raw options a →
      CastResolves w depth validating s raw options a
  | deeper {depth : Nat} {validating : Bool} {s t : Schema} {raw : Option Value}
      {options : CallOptions} {a b : Evaluation} :
      w.CastsNext (w.castWithin (depth + 1)) validating s raw options a → a.resolve w = .ok t →
      CastsOn validating s t → CastResolves w depth false t a.value a.options b →
      CastResolves w (depth + 1) validating s raw options b

/-- A cast fails as the first schema on its way that does not resolve. -/
theorem castNode_of_castResolves {depth : Nat}
    (ha : w.CastResolves depth validating s raw options a) (h : a.resolve w = .error e) :
    w.castNode (w.castWithin depth) validating s raw options = .error e := by
  induction ha with
  | here hnext => exact castNode_of_partFails hnext (Or.inl h)
  | deeper hnext ht hon _ ih => exact castNode_of_partFails hnext (Or.inr ⟨_, ht, hon, ih h⟩)

/-- A cast that fails, but for its result and for its depth, does so as a schema on its way
    that does not resolve. The induction is on the depth. -/
theorem exists_castResolves_of_castNode_error {depth : Nat}
    (hmismatch : ∀ path kind value result, e ≠ .castMismatch path kind value result)
    (hdeep : e ≠ .tooDeep)
    (h : w.castNode (w.castWithin depth) validating s raw options = .error e) :
    ∃ a, w.CastResolves depth validating s raw options a ∧ a.resolve w = .error e := by
  induction depth generalizing validating s raw options with
  | zero =>
      rcases castNode_eq_error_or_next h with ⟨-, _, _, _, _, rfl⟩ | ⟨a, ha, hfails⟩
      · exact absurd rfl (hmismatch _ _ _ _)
      rcases hfails with hresolve | ⟨t, -, -, hcast⟩
      · exact ⟨a, .here ha, hresolve⟩
      · cases hcast
        exact absurd rfl hdeep
  | succ depth ih =>
      rcases castNode_eq_error_or_next h with ⟨-, _, _, _, _, rfl⟩ | ⟨a, ha, hfails⟩
      · exact absurd rfl (hmismatch _ _ _ _)
      rcases hfails with hresolve | ⟨t, ht, hon, hcast⟩
      · exact ⟨a, .here ha, hresolve⟩
      · obtain ⟨b, hb, hresolve⟩ := ih hcast
        exact ⟨b, .deeper ha ht hon hb, hresolve⟩

-- ============================================================================
-- Calls
-- ============================================================================

/-- Whether a call resolves the schema of an evaluation before its value is checked: its
    own, or that of a part on the way of the cast. -/
inductive EntryResolves (w : Workshop) (s : Schema) (value : Option Value)
    (options : CallOptions) : Evaluation → Prop where
  | root : EntryResolves w s value options ⟨s, value, options⟩
  | cast {t : Schema} {a : Evaluation} :
      w.resolve s value options = .ok t → (Mode.of options t.traits.options).strict = false →
      w.CastResolves (depthLimit + t.height) (t.tag == .object) t value (castOptions options) a →
      EntryResolves w s value options a

/-- Whether a call resolves the schema of an evaluation: on its way to the value that is
    checked, or for a part of a node that the validation comes to. -/
inductive Resolves (w : Workshop) (s : Schema) (value : Option Value) (options : CallOptions) :
    Evaluation → Prop where
  | entry {a : Evaluation} : w.EntryResolves s value options a → Resolves w s value options a
  | part {n m : Node} {p : Part} :
      w.enter (root s value options) = .ok n → n.Visits w m → p ∈ m.parts →
      Resolves w s value options p.evaluation

/-- A call that does not come to a node fails as the entry does. -/
theorem validateSync_of_enter_error {C : RecipeClass} {w : Workshop} (hw : w.Equipped C) {s : Schema}
    (hs : s.WellMade C) {value : Option Value} {options : CallOptions} {e : Failure}
    (h : w.enter (root s value options) = .error e) : w.validateSync s value options = .error e := by
  rw [validateSync_eq hw hs]
  exact bind_eq_error.mpr (Or.inl h)

/-- A call fails as the first schema on the way to its value that does not resolve. -/
theorem enter_of_entryResolves {w : Workshop} {s : Schema} {value : Option Value}
    {options : CallOptions} {a : Evaluation} {e : Failure}
    (ha : w.EntryResolves s value options a) (h : a.resolve w = .error e) :
    w.enter (root s value options) = .error e := by
  cases ha with
  | root => exact bind_eq_error.mpr (Or.inl h)
  | @cast t _ ht hstrict hcast =>
      have hchecked : w.checkedValue t (Mode.of options t.traits.options).strict value options =
          .error e := by
        rw [hstrict]
        exact castNode_of_castResolves hcast h
      exact bind_eq_error.mpr (Or.inr ⟨t, ht, bind_eq_error.mpr (Or.inl hchecked)⟩)

/-- What ends a call before its value is checked, but for the result of the cast and its
    depth, is a schema that does not resolve. -/
theorem exists_entryResolves_of_enter_error {w : Workshop} {s : Schema} {value : Option Value}
    {options : CallOptions} {e : Failure}
    (hmismatch : ∀ path kind value result, e ≠ .castMismatch path kind value result)
    (hdeep : e ≠ .tooDeep) (h : w.enter (root s value options) = .error e) :
    ∃ a, w.EntryResolves s value options a ∧ a.resolve w = .error e := by
  rcases bind_eq_error.mp h with hresolve | ⟨t, ht, h⟩
  · exact ⟨_, .root, hresolve⟩
  rcases bind_eq_error.mp h with hchecked | ⟨checked, -, h⟩
  · have hvalue : w.checkedValue t (Mode.of options t.traits.options).strict value options =
        .error e := hchecked
    cases hstrict : (Mode.of options t.traits.options).strict with
    | true =>
        rw [hstrict] at hvalue
        cases hvalue
    | false =>
        rw [hstrict] at hvalue
        obtain ⟨a, ha, hresolve⟩ :=
          exists_castResolves_of_castNode_error hmismatch hdeep hvalue
        exact ⟨a, .cast ht hstrict ha, hresolve⟩
  · exact absurd h (by simp [pure, Except.pure])

/-- Where a call is collected without a mistake, every node that it comes to waits for no
    test, and the resolution of no part is a mistake. -/
theorem wait_of_call {C : RecipeClass} {w : Workshop} (hw : w.Equipped C) {s : Schema}
    (hs : s.WellMade C) {value : Option Value} {options : CallOptions}
    (habort : options.abortEarly = some false) (h : ¬ (w.validateSync s value options).IsMistake)
    {n m : Node} (hn : w.enter (root s value options) = .ok n) (hm : n.Visits w m) :
    (∀ x ∈ m.invoked, (x.outcome m.subject).isPending = false) ∧
      ∀ p ∈ m.parts, ¬ (w.resolve p.schema p.value p.options).IsMistake := by
  rw [validateSync_eq hw hs, hn] at h
  have hoptions : n.options.abortEarly = some false := enter_options hn ▸ habort
  exact wait_of_visits hw hm (enter_wellMade hw hs hn) (Nat.le_refl _) hoptions h

/-- A mistake of a schema on the way of a call is one of the call. -/
theorem isMistake_of_resolves {C : RecipeClass} {w : Workshop} (hw : w.Equipped C) {s : Schema}
    (hs : s.WellMade C) {value : Option Value} {options : CallOptions}
    (habort : options.abortEarly = some false) {a : Evaluation}
    (ha : w.Resolves s value options a) (h : (a.resolve w).IsMistake) :
    (w.validateSync s value options).IsMistake := by
  obtain ⟨e, he, hne⟩ := h
  cases ha with
  | entry hentry =>
      exact ⟨e, validateSync_of_enter_error hw hs (enter_of_entryResolves hentry he), hne⟩
  | @part n m p hn hm hp =>
      by_contra hno
      exact (wait_of_call hw hs habort hno hn hm).2 p hp ⟨e, he, hne⟩

/-- A pending test that a call invokes makes the call a mistake. -/
theorem isMistake_of_invokes {C : RecipeClass} {w : Workshop} (hw : w.Equipped C) {s : Schema}
    (hs : s.WellMade C) {value : Option Value} {options : CallOptions}
    (habort : options.abortEarly = some false) {m : Node} {x : Test}
    (hx : w.Invokes s value options m x) (h : (x.outcome m.subject).isPending = true) :
    (w.validateSync s value options).IsMistake := by
  obtain ⟨n, hn, hinvokes⟩ := hx
  by_contra hno
  have hready := (wait_of_call hw hs habort hno hn hinvokes.visits).1 x hinvokes.mem_invoked
  exact absurd (h.symm.trans hready) (by simp)

/-- Where a node is valid, the schemas of all parts that its validation comes to resolve. -/
theorem resolves_of_valid {n m : Node} (hm : n.Visits w m) (h : n.Valid w) {p : Part}
    (hp : p ∈ m.parts) : ∃ t, p.evaluation.resolve w = .ok t := by
  induction hm with
  | here =>
      obtain ⟨t, ht, -⟩ := h.part hp
      exact ⟨t, ht⟩
  | part hq hu _ ih =>
      obtain ⟨u, hu', hvalid⟩ := h.part hq
      cases hu.symm.trans hu'
      exact ih hvalid hp

/-- A call on the way of which a schema does not resolve is not accepted. -/
theorem exists_error_of_resolves {C : RecipeClass} {w : Workshop} (hw : w.Equipped C)
    {s : Schema} (hs : s.WellMade C) {value : Option Value} {options : CallOptions}
    {a : Evaluation} (ha : w.Resolves s value options a) {e : Failure}
    (h : a.resolve w = .error e) : ∃ e', w.validateSync s value options = .error e' := by
  cases hcall : w.validateSync s value options with
  | error e' => exact ⟨e', rfl⟩
  | ok r =>
      obtain ⟨n, hn, -, hvalid⟩ := (validateSync_eq_ok_iff_enter hw hs).mp hcall
      cases ha with
      | entry hentry =>
          exact absurd (hn.symm.trans (enter_of_entryResolves hentry h)) (by simp)
      | part hn' hm hp =>
          cases hn.symm.trans hn'
          obtain ⟨t, ht⟩ := resolves_of_valid hm hvalid hp
          exact absurd (ht.symm.trans h) (by simp)

/-- Under collection no mistake is swallowed: where an invoked test is pending, or a schema
    does not resolve and not because a function of the caller reports a violation, the call
    ends as a mistake and has no verdict. Where a function does report a violation in place
    of a schema, the value is not accepted. -/
theorem validateSync_surfaces_mistakes {w : Workshop} (hw : w.Reachable .all) {s : Schema}
    (hs : s.Obtained) (value : Option Value) {options : CallOptions}
    (habort : options.abortEarly = some false) :
    (((∃ m x, w.Invokes s value options m x ∧ (x.outcome m.subject).isPending = true) ∨
        ∃ a, w.Resolves s value options a ∧ (a.resolve w).IsMistake) →
      (w.validateSync s value options).IsMistake ∧
        ∀ b, verdict (w.validateSync s value options) ≠ .ok b) ∧
    ((∃ a e, w.Resolves s value options a ∧ a.resolve w = .error e) →
      (∃ e, w.validateSync s value options = .error e) ∧
        verdict (w.validateSync s value options) ≠ .ok true) := by
  refine ⟨fun hcause => ?_, ?_⟩
  · have hmistake : (w.validateSync s value options).IsMistake := by
      rcases hcause with ⟨m, x, hx, hpending⟩ | ⟨a, ha, hfails⟩
      · exact isMistake_of_invokes hw.equipped hs.wellMade habort hx hpending
      · exact isMistake_of_resolves hw.equipped hs.wellMade habort ha hfails
    refine ⟨hmistake, fun b hb => ?_⟩
    obtain ⟨e, he, hne⟩ := hmistake
    rw [he] at hb
    cases e with
    | violation v => exact hne v rfl
    | _ => exact absurd hb (by simp [verdict])
  · rintro ⟨a, e, ha, he⟩
    obtain ⟨e', he'⟩ := exists_error_of_resolves hw.equipped hs.wellMade ha he
    refine ⟨⟨e', he'⟩, ?_⟩
    rw [he']
    cases e' <;> simp [verdict]

/-- A schema with a condition that answers with a violation, which carries no value. -/
def reportingCondition : Recipe :=
  .make .mixed [.when [Reference.ofKey "$flag"]
    (.resolver fun _ _ => .fail (.violation (.leaf "refused" none none none)))]

/-- The schema does not resolve, and under collection the call ends with the violation and
    has a verdict. -/
theorem verdict_of_reporting_condition :
    ∃ s e, initial.build none reportingCondition = .ok s ∧ s.Obtained ∧
      initial.Resolves s (some (.int 1)) collecting ⟨s, some (.int 1), collecting⟩ ∧
      initial.resolve s (some (.int 1)) collecting = .error e ∧
      ¬ (initial.validateSync s (some (.int 1)) collecting).IsMistake ∧
      verdict (initial.validateSync s (some (.int 1)) collecting) = .ok false :=
  ⟨_, _, rfl, .built Schema.Obtained.stored_initial
    (rfl : initial.build none reportingCondition = .ok _), .entry .root, rfl,
    Result.not_isMistake_violation _, rfl⟩

/-- An object with a number that is required, a field whose test is pending where it is
    given, and one whose condition gives up where a flag of the context is set. -/
def remoteBeside : Recipe :=
  .make .object [.shape [
    ("a", .make .number [.required]),
    ("b", .make .mixed [.test (.draft
      { name := some "remote", exclusive := false, message := none, params := []
        judge := fun ctx => if ctx.value.isSome then .pending 1 .pass else .pass })]),
    ("c", .make .mixed [.when [Reference.ofKey "$flag"] (.resolver fun values _ =>
      if values.all Option.isSome then .refuse "no" else .refine [])])] []]

/-- The missing number is found, but what is reported is the pending test, or the condition
    that gives up while the fields are validated. -/
theorem validateSync_surfaces_mistakes_remote :
    ∃ s, initial.build none remoteBeside = .ok s ∧
      (initial.validateSync s (some (.obj [("b", .int 1)])) strictly).IsMistake ∧
      (initial.validateSync s (some (.obj []))
        { strictly with context := some (.obj [("flag", .bool true)]) }).IsMistake := by
  obtain ⟨s, n, a, b, c, t, x, y, hs, hn, hcollects, habort, hwork, ht, hpre, htests, hpass,
      hpending⟩ :
      ∃ s n a b c t x y, initial.build none remoteBeside = .ok s ∧
        initial.enter (root s (some (.obj [("b", .int 1)])) strictly) = .ok n ∧
        n.collects = true ∧ n.mode.abortEarly = false ∧ n.work = [a] ++ b :: [c] ∧
        initial.resolve b.schema b.value b.options = .ok t ∧
        t.traits.prerequisites = [y] ∧ t.traits.tests = [x] ∧
        y.outcome (b.node t).subject = .pass ∧ x.outcome (b.node t).subject = .pending 1 .pass :=
    ⟨_, _, _, _, _, _, _, _, rfl, rfl, rfl, rfl, rfl, rfl, rfl, rfl, rfl, rfl⟩
  obtain ⟨m, a', b', c', hm, hparts, hrefused⟩ :
      ∃ m a' b' c', initial.enter (root s (some (.obj []))
          { strictly with context := some (.obj [("flag", .bool true)]) }) = .ok m ∧
        m.parts = [a', b', c'] ∧
        initial.resolve c'.schema c'.value c'.options = .error (.rejected "no") := by
    cases hs
    exact ⟨_, _, _, _, rfl, rfl, rfl⟩
  have hobtained : s.Obtained := .built Schema.Obtained.stored_initial hs
  have hinvokes : n.Invokes initial (b.node t) x := by
    have hdescends : n.Descends := Or.inr hcollects
    refine .part hdescends hwork (fun h => ?_) ht (.declared ?_ ?_)
    · exact absurd (habort.symm.trans h) (by simp)
    · intro z hz
      have hz' : z ∈ t.traits.prerequisites := hz
      rw [hpre] at hz'
      rw [List.mem_singleton.mp hz']
      exact hpass
    · show x ∈ t.traits.tests
      rw [htests]
      exact List.mem_singleton_self x
  refine ⟨s, hs, ?_, ?_⟩
  · refine ((validateSync_surfaces_mistakes .initial hobtained _ rfl).1
      (Or.inl ⟨b.node t, x, ?_, ?_⟩)).1
    · exact ⟨n, hn, hinvokes⟩
    · rw [hpending]
      rfl
  · refine ((validateSync_surfaces_mistakes .initial hobtained _ rfl).1
      (Or.inr ⟨c'.evaluation, .part hm .here ?_, _, hrefused, by simp⟩)).1
    rw [hparts]
    simp

end Workshop

end Conform
