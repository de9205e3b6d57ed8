/-
  Conform.Proofs.Validation.Delays

  Delays do not matter when all violations are collected. A run that collects waits
  for every job and reports what the jobs end with, in the order of the jobs; by
  induction on the depth, a schema and its prompt form end a validation with the same
  result. Schemas that differ in delays only have one prompt form.
-/

import Conform.Proofs.Polling
import Conform.Proofs.Schema.PromptCasting
import Conform.Proofs.Validation.Collection
import Conform.Proofs.Validation.Synchrony

namespace Conform

-- ============================================================================
-- Runs that collect
-- ============================================================================

/-- The checks of a prompt form are the checks without their delays. -/
theorem Traits.prerequisites_prompt (t : Traits) :
    t.prompt.prerequisites = t.prerequisites.map Test.prompt := by
  unfold prerequisites prompt
  cases t.allowCheck <;> cases t.denyCheck <;> rfl

/-- Tests without their delays end as the tests do. -/
theorem Test.results_prompt (tests : List Test) (subject : Subject) :
    ((tests.map prompt).map fun t => t.run false subject).map Job.result =
      (tests.map fun t => t.run false subject).map Job.result := by
  rw [List.map_map, List.map_map, List.map_map]
  refine List.map_congr_left fun t _ => ?_
  show (t.prompt.run false subject).result = (t.run false subject).result
  rw [run_prompt, Job.done_result]

/-- The own checks of a prompt form end as those of the schema do. -/
theorem runOwn_prompt (s : Schema) (subject : Subject) :
    (runOwn s.prompt false subject false).result = (runOwn s false subject false).result := by
  have hrun (tests : List Test) := Policy.run_result_congr
    (p := .plain false subject.value subject.options.path) rfl (Test.results_prompt tests subject)
  unfold runOwn
  rw [Job.bind_result, Job.bind_result, Schema.traits_prompt, Traits.prerequisites_prompt, hrun]
  exact congrArg _ (funext fun _ => hrun s.traits.tests)

/-- Whether prompt forms of parts end like the parts, in calls that say this about the
    first violation. -/
def EndsAlike (abortEarly : Option Bool) (validatePart validatePart' : ValidatePart) : Prop :=
  ∀ s value raw (options : CallOptions), options.abortEarly = abortEarly →
    (validatePart' s.prompt value raw options).result = (validatePart s value raw options).result

variable {validatePart validatePart' : ValidatePart}

theorem validateFields_prompt {visit : Visit} (hcollects : visit.abortEarly = false)
    (hparts : EndsAlike visit.options.abortEarly validatePart validatePart')
    (shape : Shape Schema) (fields : Dict Value) :
    (validateFields validatePart' (Schema.promptShape shape) visit fields).result =
      (validateFields validatePart shape visit fields).result := by
  unfold validateFields
  dsimp only [Schema.promptShape]
  rw [Job.bind_result, Job.bind_result, Schema.keys_promptFields]
  refine congrArg (· >>= _) (Policy.run_result_congr hcollects ?_)
  rw [List.map_filterMap, List.map_filterMap]
  congr 1
  funext key
  rw [Schema.lookup_promptFields]
  cases shape.fields.lookup key with
  | none => rfl
  | some field => exact congrArg some (Job.discard_congr (hparts field _ _ _ rfl))

theorem validateItems_prompt {visit : Visit} (hcollects : visit.abortEarly = false)
    (hparts : EndsAlike visit.options.abortEarly validatePart validatePart')
    (element : Schema) (items : List Value) :
    (validateItems validatePart' element.prompt visit items).result =
      (validateItems validatePart element visit items).result := by
  unfold validateItems
  dsimp only
  rw [Job.bind_result, Job.bind_result]
  refine congrArg (· >>= _) (Policy.run_result_congr hcollects ?_)
  rw [List.map_map, List.map_map]
  refine List.map_congr_left fun item _ => ?_
  exact Job.discard_congr (hparts element _ _ _ rfl)

theorem validateParts_prompt {visit : Visit} (hcollects : visit.abortEarly = false)
    (hparts : EndsAlike visit.options.abortEarly validatePart validatePart') (s : Schema)
    (recursive : Bool) :
    (validateParts validatePart' s.prompt recursive visit).result =
      (validateParts validatePart s recursive visit).result := by
  unfold validateParts
  rw [Schema.kind_prompt]
  split
  · cases s.kind with
    | object shape =>
        rw [Schema.promptKind_object]
        rcases visit.value with _ | v
        · rfl
        · cases v with
          | obj fields => exact validateFields_prompt hcollects hparts shape fields
          | _ => rfl
    | array element =>
        cases element with
        | of t =>
            rcases visit.value with _ | v
            · rfl
            · cases v with
              | arr items => exact validateItems_prompt hcollects hparts t items
              | _ => rfl
        | _ => rfl
    | _ => rfl
  · rfl

-- ============================================================================
-- Nodes
-- ============================================================================

/-- The part with the prompt form of its schema. -/
def Part.prompt (p : Part) : Part := { p with schema := p.schema.prompt }

/-- The node with the prompt form of its schema. -/
def Node.prompt (n : Node) : Node := { n with schema := n.schema.prompt }

/-- The run of a node that collects ends with the same result for the prompt form of
    the schema. -/
theorem Node.run_prompt {n : Node} (hcollects : n.options.abortEarly = some false)
    (hparts : EndsAlike (some false) validatePart validatePart') :
    (n.prompt.run false validatePart').result = (n.run false validatePart).result := by
  -- what the run reads of the schema beside its tests and parts has no predicates in it
  have hmode : n.prompt.mode = n.mode := by
    rw [mode, mode, prompt, Schema.traits_prompt]
    rfl
  have habort : n.mode.abortEarly = false := mode_abortEarly hcollects
  have hsubject : n.prompt.subject = n.subject := by
    unfold subject prompt Workshop.subjectOf
    rw [Schema.view_prompt, Schema.traits_prompt]
    rfl
  have hvisit (found : List Violation) : n.prompt.visit found = n.visit found := by
    rw [visit, visit, hmode]
    rfl
  unfold run
  rw [Job.bind_result, Job.bind_result, hmode, hsubject, habort]
  simp only [hvisit]
  dsimp only [prompt]
  rw [Schema.tag_prompt, collectOwn_congr (runOwn_prompt n.schema n.subject)]
  refine congrArg _ (funext fun found => ?_)
  exact validateParts_prompt habort (hcollects ▸ hparts) n.schema n.mode.recursive

namespace Workshop

/-- A part is entered at the same node, but for delays. -/
theorem prompt_enter (w : Workshop) (p : Part) :
    (w.enter p).map Node.prompt = w.prompt.enter p.prompt := by
  unfold enter
  refine bind_map_congr (w.prompt_resolve p.schema p.value p.options) fun resolved => ?_
  have hmode : Mode.of p.options resolved.prompt.traits.options =
      Mode.of p.options resolved.traits.options := by
    rw [Schema.traits_prompt]
    rfl
  dsimp only [Part.prompt]
  rw [hmode, checkedValue_prompt]
  cases w.checkedValue resolved (Mode.of p.options resolved.traits.options).strict p.value
    p.options <;> rfl

/-- Entering a part and running its node ends with one result for a schema and its
    prompt form, when all violations are collected. -/
theorem enter_run_prompt (w : Workshop) {p : Part} (hcollects : p.options.abortEarly = some false)
    (validatePart validatePart' : Node → ValidatePart)
    (hparts : ∀ n, EndsAlike (some false) (validatePart n) (validatePart' n.prompt)) :
    (Job.bind (.done (w.prompt.enter p.prompt)) fun n => n.run false (validatePart' n)).result =
      (Job.bind (.done (w.enter p)) fun n => n.run false (validatePart n)).result := by
  rw [Job.bind_result, Job.bind_result, Job.done_result, Job.done_result, ← prompt_enter]
  cases hn : w.enter p with
  | error e => rfl
  | ok n => exact Node.run_prompt (enter_options hn ▸ hcollects) (hparts n)

/-- Prompt forms of parts end like the parts, to every depth. -/
theorem validateWithin_prompt (w : Workshop) (depth : Nat) :
    EndsAlike (some false) (w.validateWithin false depth)
      (w.prompt.validateWithin false depth) := by
  induction depth with
  | zero => exact fun _ _ _ _ _ => rfl
  | succ depth ih =>
      intro s value raw options hcollects
      -- parts inherit the policy of the call, so the induction goes on at every depth
      have hrun := w.enter_run_prompt (p := ⟨s, value, raw, options⟩) hcollects
        (fun _ => w.validateWithin false depth) (fun _ => w.prompt.validateWithin false depth)
        fun _ => ih
      rw [← validateWithin_succ, ← validateWithin_succ] at hrun
      exact hrun

-- ============================================================================
-- Calls
-- ============================================================================

/-- A call that collects ends with what it ends with for the prompt form. -/
theorem validateJob_prompt (w : Workshop) (s : Schema) (value : Option Value)
    {options : CallOptions} (hcollects : options.abortEarly = some false) :
    (w.prompt.validateJob s.prompt value options false).result =
      (w.validateJob s value options false).result := by
  rw [validateJob_eq, validateJob_eq]
  exact w.enter_run_prompt (p := root s value options) hcollects
    (fun n => w.validateWithin false (Value.heightOf n.value))
    (fun n => w.prompt.validateWithin false (Value.heightOf n.value))
    fun n => w.validateWithin_prompt (Value.heightOf n.value)

/-- A call that collects all violations ends with one result, however long each of
    the predicates takes: polled until they are ready, the calls with two schemas that
    differ in nothing but delays give the same value or the same violations in the same
    order. -/
theorem validate_ignores_delays {w w' : Workshop} (hw : w.prompt = w'.prompt) {s s' : Schema}
    (hs : s.prompt = s'.prompt) (value : Option Value) {options : CallOptions}
    (hcollects : options.abortEarly = some false) :
    ∃ r, (∀ q, (w.validateJob s value options false).Ends q ↔ q = r) ∧
      ∀ q, (w'.validateJob s' value options false).Ends q ↔ q = r := by
  have hsame : (w'.validateJob s' value options false).result =
      (w.validateJob s value options false).result := by
    rw [← w.validateJob_prompt s value hcollects, hw, hs,
      w'.validateJob_prompt s' value hcollects]
  exact ⟨_, fun _ => Job.ends_iff, fun _ => hsame ▸ Job.ends_iff⟩

/-- An object with three fields that are judged as given. -/
def judgedFields (a b c : Outcome) : Recipe :=
  let field (outcome : Outcome) : Recipe := .make .mixed
    [.test (.draft { name := some "remote", exclusive := false, message := none, params := []
                     judge := fun _ => outcome })]
  .make .object [.shape [("a", field a), ("b", field b), ("c", field c)] []]

/-- Three fields that are refused at once are reported in their order. -/
theorem validateJob_judgedFields_fail :
    ∃ s v, initial.build none (judgedFields .fail .fail .fail) = .ok s ∧
      v.inner.map Violation.path = [some "a", some "b", some "c"] ∧
      (initial.validateJob s (some (.obj [])) strictly false).result = .error (.violation v) := by
  obtain ⟨s, n, a, b, c, ta, tb, tc, va, vb, vc, x, y, za, zb, zc, hs, hn, hparts, ⟨ha, hb, hc⟩,
      ⟨haparts, hbparts, hcparts⟩, ⟨hnown, haown, hbown, hcown⟩, ⟨hainvoked, hbinvoked, hcinvoked⟩,
      hninvoked, ⟨htyped, hmixed⟩, ⟨hza, hzb, hzc⟩, hleaves, hpaths⟩ :
      ∃ s n a b c ta tb tc va vb vc x y za zb zc,
        initial.build none (judgedFields .fail .fail .fail) = .ok s ∧
        initial.enter (root s (some (.obj [])) strictly) = .ok n ∧ n.parts = [a, b, c] ∧
        (initial.resolve a.schema a.value a.options = .ok ta ∧
          initial.resolve b.schema b.value b.options = .ok tb ∧
          initial.resolve c.schema c.value c.options = .ok tc) ∧
        ((a.node ta).parts = [] ∧ (b.node tb).parts = [] ∧ (c.node tc).parts = []) ∧
        (n.ownViolations = [] ∧ (a.node ta).ownViolations = [va] ∧
          (b.node tb).ownViolations = [vb] ∧ (c.node tc).ownViolations = [vc]) ∧
        ((a.node ta).invoked = [y, za] ∧ (b.node tb).invoked = [y, zb] ∧
          (c.node tc).invoked = [y, zc]) ∧
        n.invoked = [x] ∧
        ((∀ subject, (x.outcome subject).isPending = false) ∧
          ∀ subject, (y.outcome subject).isPending = false) ∧
        ((∀ subject, za.outcome subject = .fail) ∧ (∀ subject, zb.outcome subject = .fail) ∧
          ∀ subject, zc.outcome subject = .fail) ∧
        (va.leaves = [va] ∧ vb.leaves = [vb] ∧ vc.leaves = [vc]) ∧
        [va, vb, vc].map Violation.path = [some "a", some "b", some "c"] :=
    ⟨_, _, _, _, _, _, _, _, _, _, _, _, _, _, _, _, rfl, rfl, rfl, ⟨rfl, rfl, rfl⟩,
      ⟨rfl, rfl, rfl⟩, ⟨rfl, rfl, rfl, rfl⟩, ⟨rfl, rfl, rfl⟩, rfl,
      ⟨fun _ => Check.judge_isPending .typed _, fun _ => Check.judge_isPending .typed _⟩,
      ⟨fun _ => rfl, fun _ => rfl, fun _ => rfl⟩, ⟨rfl, rfl, rfl⟩, rfl⟩
  have hmade : s.Made .all := ⟨initial, none, _, .initial, trivial, hs⟩
  have hvisits : ∀ m, n.Visits initial m →
      (∀ z ∈ m.invoked, (z.outcome m.subject).isPending = false) ∧
        ∀ p ∈ m.parts, ∃ t, initial.resolve p.schema p.value p.options = .ok t := by
    have hfield : ∀ {p : Part} {t : Schema} {z : Test}, (p.node t).parts = [] →
        (p.node t).invoked = [y, z] → (∀ subject, z.outcome subject = .fail) →
        ∀ m, (p.node t).Visits initial m →
          (∀ z ∈ m.invoked, (z.outcome m.subject).isPending = false) ∧
            ∀ p ∈ m.parts, ∃ t, initial.resolve p.schema p.value p.options = .ok t := by
      intro p t z hnone hinvoked hz
      refine Node.visits_of_parts_eq_nil hnone ⟨?_, by simp [hnone]⟩
      rw [hinvoked]
      refine List.forall_mem_cons.mpr ⟨hmixed _, List.forall_mem_singleton.mpr ?_⟩
      rw [hz]
      rfl
    intro m hm
    refine hm.of_parts ⟨by simpa [hninvoked] using htyped _, by simp [hparts, ha, hb, hc]⟩ ?_
    simp only [hparts, List.forall_mem_cons]
    exact ⟨⟨ta, ha, hfield haparts hainvoked hza⟩, ⟨tb, hb, hfield hbparts hbinvoked hzb⟩,
      ⟨tc, hc, hfield hcparts hcinvoked hzc⟩, by simp⟩
  have hnothing : initial.NothingPending s (some (.obj [])) strictly := by
    rintro m z ⟨n', hn', hz⟩
    cases hn.symm.trans hn'
    exact (hvisits m hz.visits).1 z hz.mem_invoked
  have hviolations : n.violations initial = [va, vb, vc] := by
    simp only [Node.violations_eq, hparts, haparts, hbparts, hcparts, List.flatMap_cons,
      List.flatMap_nil, Node.part_violations ha, Node.part_violations hb, Node.part_violations hc,
      hnown, haown, hbown, hcown]
    rfl
  have hreport := validateSync_eq_report Reachable.initial.equipped hmade.wellMade rfl hn
    (fun m hm => (hvisits m hm).1) fun m hm => (hvisits m hm).2
  rw [Node.report, hviolations, if_neg (by simp),
    validateSync_eq_result Reachable.initial.equipped hmade.wellMade,
    ← validateJob_of_nothingPending Reachable.initial.equipped hmade.wellMade hnothing] at hreport
  refine ⟨s, _, hs, ?_, hreport⟩
  simpa [Violation.collect, hleaves.1, hleaves.2.1, hleaves.2.2] using hpaths

/-- Three refusals. The last field is decided first in one call and last in the other
    one, where it is waited for twice. Both calls report the fields in their order. -/
theorem validate_ignores_delays_refusals :
    ∃ s s' v,
      initial.build none (judgedFields (.pending 3 .fail) (.pending 1 .fail) .fail) = .ok s ∧
      initial.build none (judgedFields .fail .fail (.pending 1 (.pending 5 .fail))) = .ok s' ∧
      s.prompt = s'.prompt ∧ v.inner.map Violation.path = [some "a", some "b", some "c"] ∧
      (∀ q, (initial.validateJob s (some (.obj [])) strictly false).Ends q ↔
        q = .error (.violation v)) ∧
      ∀ q, (initial.validateJob s' (some (.obj [])) strictly false).Ends q ↔
        q = .error (.violation v) := by
  obtain ⟨s, s', hs, hs'⟩ : ∃ s s',
      initial.build none (judgedFields (.pending 3 .fail) (.pending 1 .fail) .fail) = .ok s ∧
      initial.build none (judgedFields .fail .fail (.pending 1 (.pending 5 .fail))) = .ok s' :=
    ⟨_, _, rfl, rfl⟩
  obtain ⟨u, v, hu, hpaths, hv⟩ := validateJob_judgedFields_fail
  have hsame : s.prompt = s'.prompt := by
    refine prompt_eq_of_build rfl ?_ hs hs'
    rfl
  have hnow : s.prompt = u.prompt := by
    refine prompt_eq_of_build rfl ?_ hs hu
    rfl
  have hcollects : strictly.abortEarly = some false := rfl
  obtain ⟨r, hr, hr'⟩ := validate_ignores_delays rfl hsame (some (.obj [])) hcollects
  obtain ⟨q, hq, hq'⟩ := validate_ignores_delays rfl hnow (some (.obj [])) hcollects
  -- the call without delays says what the result is
  have hresult : r = .error (.violation v) := by
    rw [(hq r).mp ((hr r).mpr rfl)]
    exact ((hq' _).mp (Job.ends_iff.mpr hv.symm)).symm
  exact ⟨s, s', v, hs, hs', hsame, hpaths, hresult ▸ hr, hresult ▸ hr'⟩

end Workshop

end Conform
