/-
  Conform.Proofs.Validation.TypeMessage

  Where the message of the type check shows. Nodes whose schemas are one when muted run
  alike until the check of the type fails; from there on they report violations that
  differ in one leaf, the one of this check, and in it only in the text. A schema with a
  fresh mixed schema laid over it is the schema with the standard message for its type.
-/

import Conform.Proofs.Polling
import Conform.Proofs.Schema.Obtained
import Conform.Proofs.Schema.TypeMessage
import Conform.Proofs.Validation.Run
import Conform.Proofs.Violation

namespace Conform

-- ============================================================================
-- Violations
-- ============================================================================

namespace Violation

/-- A leaf with another text. -/
def withText (v : Violation) (text : String) : Violation :=
  { v with message := text, errors := [text] }

/-- Whether two violations differ in the text of one leaf, that of the type check at a
    path, and in what repeats this text. -/
structure Retells (place : Option String) (v u : Violation) : Prop where
  value : u.value = v.value
  path : u.path = v.path
  kind : u.kind = v.kind
  params : u.params = v.params
  message : v.message = summary v.errors ∧ u.message = summary u.errors
  told : ∃ (leaf : Violation) (text : String) (front back : List Violation)
      (said unsaid : List String),
    leaf.IsLeaf ∧ leaf.kind = some "typeError" ∧ leaf.path = place ∧
      v.leaves = front ++ leaf :: back ∧ u.leaves = front ++ leaf.withText text :: back ∧
      v.errors = said ++ leaf.message :: unsaid ∧ u.errors = said ++ text :: unsaid

variable {place : Option String} {v u : Violation}

theorem IsLeaf.withText (h : v.IsLeaf) (text : String) : (v.withText text).IsLeaf :=
  ⟨h.inner, rfl⟩

theorem IsLeaf.retells (h : v.IsLeaf) (hkind : v.kind = some "typeError") (hpath : v.path = place)
    (text : String) : Retells place v (v.withText text) where
  value := rfl
  path := rfl
  kind := rfl
  params := rfl
  message := ⟨by rw [h.errors, summary], rfl⟩
  told := by
    refine ⟨v, text, [], [], [], [], h, hkind, hpath, h.leaves_eq, ?_, h.errors, rfl⟩
    exact (h.withText text).leaves_eq

/-- Collections of the same violations around two that differ in one text. -/
theorem Retells.collect (h : Retells place v u) (before after : List Violation)
    (value : Option Value) (path : Option String) :
    Retells place (collect (before ++ v :: after) value path)
      (Violation.collect (before ++ u :: after) value path) where
  value := rfl
  path := rfl
  kind := rfl
  params := rfl
  message := ⟨rfl, rfl⟩
  told := by
    obtain ⟨leaf, text, front, back, said, unsaid, hleaf, hkind, hpath, hv, hu, hve, hue⟩ := h.told
    refine ⟨leaf, text, before.flatMap leaves ++ front, back ++ after.flatMap leaves,
      before.flatMap errors ++ said, unsaid ++ after.flatMap errors, hleaf, hkind, hpath, ?_, ?_,
      ?_, ?_⟩
    · rw [leaves_collect (by simp), List.flatMap_append, List.flatMap_cons, hv]
      simp
    · rw [leaves_collect (by simp), List.flatMap_append, List.flatMap_cons, hu]
      simp
    · show (before ++ v :: after).flatMap errors = _
      rw [List.flatMap_append, List.flatMap_cons, hve]
      simp
    · show (before ++ u :: after).flatMap errors = _
      rw [List.flatMap_append, List.flatMap_cons, hue]
      simp

end Violation

/-- Whether two results are the same, or violations that differ in the text of the type
    check at a path. -/
def Result.Retells {α : Type} (place : Option String) (r s : Result α) : Prop :=
  s = r ∨ ∃ v u, r = .error (.violation v) ∧ s = .error (.violation u) ∧ v.Retells place u

-- ============================================================================
-- The check of the type
-- ============================================================================

/-- The check of the type passes with any message, or fails at once with one leaf that
    the message gives its text. -/
theorem Test.ChecksType.run {x : Test} (h : x.ChecksType) (message : Message) (sync : Bool)
    (subject : Subject) :
    (x.withMessage message).run sync subject = x.run sync subject ∨
      ∃ leaf text, leaf.IsLeaf ∧ leaf.kind = some "typeError" ∧ leaf.path = subject.path ∧
        x.run sync subject = .fail (.violation leaf) ∧
        (x.withMessage message).run sync subject = .fail (.violation (leaf.withText text)) := by
  obtain ⟨m, rfl⟩ := h
  have hholds : ∀ m', Check.typed.holds ⟨(Test.named "typeError" m' (.check .typed)).toTestHead,
      subject⟩ = subject.value.all subject.node.isType := fun _ => rfl
  have houtcome : ∀ m', (Test.named "typeError" m' (.check .typed)).run sync subject =
      if subject.value.all subject.node.isType then .pure ()
      else .fail (.violation (TestContext.typeViolation
        ⟨(Test.named "typeError" m' (.check .typed)).toTestHead, subject⟩)) := by
    intro m'
    rw [Test.run, Test.outcome]
    show (if sync && (Check.judge .typed _).isPending then _ else (Check.judge .typed _).settle _) = _
    rw [Check.judge, hholds]
    cases subject.value.all subject.node.isType <;> simp [Outcome.isPending, Outcome.settle]
  have hmessage : (Test.named "typeError" m (.check .typed)).withMessage message =
      .named "typeError" message (.check .typed) := rfl
  rw [hmessage, houtcome, houtcome]
  split
  · exact Or.inl rfl
  · refine Or.inr ⟨_, _, ⟨rfl, rfl⟩, rfl, rfl, rfl, rfl⟩

namespace Policy

variable {p : Policy} {jobs : List (Job Unit)} {v u : Violation} {place : Option String}

/-- A job that fails at once stops the run of which it is the first. -/
theorem runFirst_fail_cons :
    (p.runFirst (.fail (.violation v) :: jobs)).result =
      .error (.violation { v with value := p.value }) := by
  have hfirst : p.runFirst ([] ++ .fail (.violation v) :: jobs) = .fail (p.stopped (.violation v)) :=
    runFirst_of_fails_at_once (by simp) (Job.ready_done _) rfl
  rw [List.nil_append] at hfirst
  rw [hfirst]
  rfl

/-- What is collected behind a violation that was found before. -/
theorem collected_before (hbefore : p.before = [v]) :
    p.collected jobs = violations jobs >>= fun found =>
      .error (.violation (Violation.collect (p.sortRanked found ++ [v]) p.value p.path)) := by
  rw [collected, hbefore]
  cases violations jobs with
  | error e => rfl
  | ok found => simp [bind, Except.bind]

/-- What is collected before other violations. -/
theorem collected_fail_cons (abortEarly : Bool) (value : Option Value) (path : Option String) :
    (plain abortEarly value path).collected (.fail (.violation v) :: jobs) =
      violations jobs >>= fun found =>
        .error (.violation (Violation.collect (v :: found) value path)) := by
  have hsort : ∀ found, (plain abortEarly value path).sortRanked found = found := by
    intro found
    exact sortRanked_of_forall_eq fun u _ => rfl
  rw [collected, violations]
  dsimp only [Job.fail, Job.done]
  cases violations jobs with
  | error e => rfl
  | ok found =>
      simp only [bind, Except.bind, Except.map, hsort]
      simp [plain]

end Policy

-- ============================================================================
-- Nodes
-- ============================================================================

namespace Node

variable {n : Node}

/-- The node with another message for the check of its type. -/
def withTypeMessage (n : Node) (message : Message) : Node :=
  { n with schema := n.schema.setTypeError message }

/-- The own checks end alike, or report violations that differ in one text. -/
theorem own_retells (htyped : n.schema.traits.typeError.ChecksType) (message : Message)
    (sync : Bool) :
    Result.Retells n.options.path (n.own sync).result
      ((n.withTypeMessage message).own sync).result := by
  let lists := (n.schema.traits.allowCheck.toList ++ n.schema.traits.denyCheck.toList).map
    fun t => t.run sync n.subject
  let rest := fun _ : Unit => n.ownPolicy.run (n.testJobs sync)
  have hown : n.own sync =
      Job.bind (n.ownPolicy.run (n.schema.traits.typeError.run sync n.subject :: lists)) rest := by
    rw [own_eq, prerequisiteJobs, Traits.prerequisites, List.append_assoc]
    rfl
  have hother : (n.withTypeMessage message).own sync = Job.bind (n.ownPolicy.run
      ((n.schema.traits.typeError.withMessage message).run sync n.subject :: lists)) rest := by
    rw [own_eq, prerequisiteJobs, Traits.prerequisites, List.append_assoc]
    rfl
  rw [hown, hother]
  rcases htyped.run message sync n.subject with hsame | ⟨leaf, text, hleaf, hkind, hpath, hv, hu⟩
  · rw [hsame]
    exact Or.inl rfl
  rw [hv, hu, Job.bind_result, Job.bind_result]
  cases habort : n.mode.abortEarly with
  | true =>
      have hpolicy : n.ownPolicy.abortEarly = true := habort
      rw [Policy.run_of_abortEarly hpolicy, Policy.run_of_abortEarly hpolicy,
        Policy.runFirst_fail_cons, Policy.runFirst_fail_cons]
      have hleaf' : Violation.IsLeaf { leaf with value := n.ownPolicy.value } :=
        ⟨hleaf.inner, hleaf.errors⟩
      exact Or.inr ⟨_, _, rfl, rfl, hleaf'.retells hkind hpath text⟩
  | false =>
      have hpolicy : n.ownPolicy.abortEarly = false := habort
      rw [Policy.run_of_collects hpolicy, Policy.run_of_collects hpolicy, ownPolicy,
        Policy.collected_fail_cons, Policy.collected_fail_cons]
      cases Policy.violations lists with
      | error e => exact Or.inl rfl
      | ok found =>
          have hretells := (hleaf.retells hkind hpath text).collect [] found n.value n.options.path
          exact Or.inr ⟨_, _, rfl, rfl, hretells⟩

/-- The parts of a node below own violations that differ in one text. -/
theorem partsJob_retells (hshape : ∀ shape, n.schema.kind = .object shape → shape.Ordered)
    (habort : n.mode.abortEarly = false) {validatePart : ValidatePart} {place : Option String}
    {v u : Violation} (h : v.Retells place u) :
    Result.Retells place (n.partsJob validatePart [v]).result
      (n.partsJob validatePart [u]).result := by
  rw [partsJob, partsJob]
  rcases n.validateParts_eq hshape with ⟨-, hfinish⟩ | ⟨plan, -, hplan⟩
  · rw [hfinish, hfinish, Visit.finish_of_cons rfl, Visit.finish_of_cons rfl]
    exact Or.inr ⟨v, u, rfl, rfl, h⟩
  · have hsort : (plan.policy [u]).sortRanked = (plan.policy [v]).sortRanked := rfl
    rw [hplan, hplan, Job.bind_result, Job.bind_result, Policy.run_of_collects habort,
      Policy.run_of_collects habort, Policy.collected_before rfl, Policy.collected_before rfl,
      hsort]
    cases Policy.violations (plan.jobs validatePart) with
    | error e => exact Or.inl rfl
    | ok found => exact Or.inr ⟨_, _, rfl, rfl, h.collect _ [] _ _⟩

/-- Nodes that differ in the message of the type check end alike, or report violations
    that differ in one text. -/
theorem run_retells {C : RecipeClass} (hn : n.schema.Regular C) (message : Message) (sync : Bool)
    (validatePart : ValidatePart) :
    Result.Retells n.options.path (n.run sync validatePart).result
      ((n.withTypeMessage message).run sync validatePart).result := by
  have hrun : (n.run sync validatePart).result =
      (collectOwn (n.own sync) n.collects).result >>= fun found =>
        (n.partsJob validatePart found).result := by
    rw [run_eq, Job.bind_result]
  have hother : ((n.withTypeMessage message).run sync validatePart).result =
      (collectOwn ((n.withTypeMessage message).own sync) n.collects).result >>= fun found =>
        (n.partsJob validatePart found).result := by
    rw [run_eq, Job.bind_result]
    rfl
  rcases n.own_retells hn.typed message sync with hsame | ⟨v, u, hv, hu, hretells⟩
  · rw [hrun, hother, collectOwn_congr hsame]
    exact Or.inl rfl
  cases hcollects : n.collects with
  | false =>
      rw [run_of_own_error hv fun _ => hcollects, run_of_own_error hu fun _ => hcollects]
      exact Or.inr ⟨v, u, rfl, rfl, hretells⟩
  | true =>
      have habort : n.mode.abortEarly = false := by
        simpa using (Bool.and_eq_true_iff.mp hcollects).2
      rw [run_of_own_violation hv hcollects, run_of_own_violation hu hcollects]
      exact partsJob_retells hn.shape habort hretells

end Node

-- ============================================================================
-- Calls
-- ============================================================================

namespace Workshop

variable {w : Workshop} {s t : Schema}

/-- Schemas that are one when muted are entered alike, but for the message. -/
theorem enter_of_mute (h : t.mute = s.mute) (value : Option Value) (options : CallOptions) :
    w.enter (root t value options) = w.enter (root s value options) ∨
      ∃ n message, w.enter (root s value options) = .ok n ∧
        w.enter (root t value options) = .ok (n.withTypeMessage message) := by
  unfold enter root
  dsimp only
  rcases w.resolve_of_mute h value options with ⟨e, hs, ht⟩ | ⟨u, v, hs, ht, huv⟩
  · rw [hs, ht]
    exact Or.inl rfl
  · have heq := Schema.eq_setTypeError_of_mute huv
    have hchecked : ∀ strict, w.checkedValue v strict value options =
        w.checkedValue u strict value options := by
      intro strict
      rw [checkedValue, checkedValue, castResolved_of_mute huv, heq]
      rfl
    rw [hs, ht]
    simp only [bind, Except.bind, hchecked]
    have hmode : Mode.of options v.traits.options = Mode.of options u.traits.options := by
      rw [heq]
      rfl
    rw [hmode]
    cases w.checkedValue u (Mode.of options u.traits.options).strict value options with
    | error e => exact Or.inl rfl
    | ok checked => exact Or.inr ⟨_, _, rfl, by rw [heq]; rfl⟩

/-- Schemas that are one when muted end a call alike, or with violations that differ in
    the text of the type check of the value. -/
theorem validateJob_retells {C : RecipeClass} (hw : w.Equipped C) (hs : s.WellMade C)
    (h : t.mute = s.mute) (value : Option Value) (options : CallOptions) (sync : Bool) :
    Result.Retells options.path (w.validateJob s value options sync).result
      (w.validateJob t value options sync).result := by
  rw [validateJob_eq, validateJob_eq, Job.bind_result, Job.bind_result, Job.done_result,
    Job.done_result]
  rcases w.enter_of_mute h value options with hsame | ⟨n, message, hn, ht⟩
  · rw [hsame]
    exact Or.inl rfl
  · have hregular := (enter_wellMade hw hs hn).here
    have hpath : n.options.path = options.path := by
      rw [enter_options hn]
      rfl
    rw [hn, ht, ← hpath]
    exact n.run_retells hregular message sync _

/-- A fresh mixed schema laid over a schema changes nothing but the message of the type
    check, which becomes the standard one. If it was the standard one before, nothing
    changes at all. Otherwise casts stay the same, and calls end alike or with violations
    that differ in the text of the type check of the value. -/
theorem concat_mixed_resets_type_message (hw : w.Reachable .all) (hs : s.Obtained) :
    ∃ t, s.concat (.fresh w.locale .mixed) = .ok t ∧
      t = s.setTypeError (w.locale .notType) ∧
      (s.traits.typeError.message = w.locale .notType → t = s) ∧
      ∀ value options, w.cast t value options = w.cast s value options ∧
        Result.Retells options.path (w.validate s value options) (w.validate t value options) ∧
        Result.Retells options.path (w.validateSync s value options)
          (w.validateSync t value options) := by
  have hequipped := hw.equipped
  have hmade := hs.wellMade
  have hmute : (s.setTypeError (w.locale .notType)).mute = s.mute := s.mute_setTypeError _
  have hother : (s.setTypeError (w.locale .notType)).WellMade .all :=
    hmade.edited (.setTypeError _ (.refl s))
  refine ⟨_, hmade.here.concat_fresh_mixed w.locale, rfl, ?_, fun value options => ⟨?_, ?_, ?_⟩⟩
  · intro hmessage
    rw [← hmessage]
    exact (Schema.eq_setTypeError_of_mute rfl).symm
  · exact cast_of_mute hmute value options
  · exact validateJob_retells hequipped hmade hmute value options false
  · rw [validateSync_eq_result hequipped hmade, validateSync_eq_result hequipped hother]
    exact validateJob_retells hequipped hmade hmute value options true

/-- A number with a message of its own for values of another type. -/
def numberWithMessage : Recipe := .make .number [.typeError "not a number"]

/-- The message of its own is lost behind a concatenation that sets none. -/
theorem concat_mixed_resets_type_message_number :
    ∃ s t v u, initial.build none numberWithMessage = .ok s ∧
      s.concat (.fresh initial.locale .mixed) = .ok t ∧
      initial.validateSync s (some (.bool true)) { CallOptions.none with strict := some true } =
        .error (.violation v) ∧
      initial.validateSync t (some (.bool true)) { CallOptions.none with strict := some true } =
        .error (.violation u) ∧
      v.message = "not a number" ∧
      u.message = "this must be a `number` type, but the final value was: `true`." ∧
      v.Retells none u := by
  obtain ⟨s, v, u, hs, hv, hu, hvmessage, humessage⟩ :
      ∃ s v u, initial.build none numberWithMessage = .ok s ∧
        initial.validateSync s (some (.bool true)) { CallOptions.none with strict := some true } =
          .error (.violation v) ∧
        initial.validateSync (s.setTypeError (initial.locale .notType)) (some (.bool true))
          { CallOptions.none with strict := some true } = .error (.violation u) ∧
        v.message = "not a number" ∧
        u.message = "this must be a `number` type, but the final value was: `true`." :=
    ⟨_, _, _, rfl, rfl, rfl, by decide +kernel, by decide +kernel⟩
  obtain ⟨t, ht, rfl, -, hcalls⟩ := concat_mixed_resets_type_message .initial
    (.built Schema.Obtained.stored_initial hs)
  refine ⟨s, _, v, u, hs, ht, hv, hu, hvmessage, humessage, ?_⟩
  obtain ⟨-, -, hsync⟩ := hcalls (some (.bool true)) { CallOptions.none with strict := some true }
  rcases hsync with hsame | ⟨v', u', hv', hu', hretells⟩
  · rw [hv, hu] at hsame
    cases hsame
    exact absurd (hvmessage.symm.trans humessage) (by decide)
  · rw [hv] at hv'
    rw [hu] at hu'
    cases hv'
    cases hu'
    exact hretells

end Workshop

end Conform
