/-
  Conform.Proofs.Validation.Acceptance

  A synchronous validation accepts exactly the values that are valid at every
  depth: the value has the type of its schema, the lists admit it, every declared
  test passes, and the same holds of its fields or items, each with the schema that
  its own declaration resolves to.
-/

import Conform.Proofs.Validation.Run

namespace Conform

-- ============================================================================
-- Validity
-- ============================================================================

namespace Node

/-- Whether the value is defined and an entry of the set admits it, references
    being read at the node. -/
def Lists (n : Node) (set : EntrySet) : Prop :=
  ∃ v, n.value = some v ∧
    set.admits v (fun r => r.value n.options.parent n.options.context) = true

/-- Whether a node is valid by itself: its type, its lists and its tests, parts
    aside. -/
structure Sound (n : Node) : Prop where
  typed : ∀ v, n.value = some v → n.schema.isType v = true
  allowed : n.schema.traits.allowCheck.isSome = true →
    n.value = none ∨ n.schema.traits.allow.isEmpty = true ∨ n.Lists n.schema.traits.allow
  denied : n.schema.traits.denyCheck.isSome = true → ¬ n.Lists n.schema.traits.deny
  tests : ∀ t ∈ n.schema.traits.tests, t.outcome n.subject = .pass

/-- Whether a node is valid at every depth. -/
inductive Valid (w : Workshop) : Node → Prop where
  | intro {n : Node} :
      n.Sound →
      (∀ p ∈ n.parts, ∃ t, w.resolve p.schema p.value p.options = .ok t) →
      (∀ p ∈ n.parts, ∀ t, w.resolve p.schema p.value p.options = .ok t → Valid w (p.node t)) →
      Valid w n

theorem Valid.sound {w : Workshop} {n : Node} (h : n.Valid w) : n.Sound := by
  cases h with
  | intro hsound _ _ => exact hsound

theorem Valid.part {w : Workshop} {n : Node} (h : n.Valid w) {p : Part} (hp : p ∈ n.parts) :
    ∃ t, w.resolve p.schema p.value p.options = .ok t ∧ (p.node t).Valid w := by
  cases h with
  | intro _ hresolves hparts =>
      obtain ⟨t, ht⟩ := hresolves p hp
      exact ⟨t, ht, hparts p hp t ht⟩

theorem Valid.of_parts {w : Workshop} {n : Node} (hsound : n.Sound)
    (hparts : ∀ p ∈ n.parts,
      ∃ t, w.resolve p.schema p.value p.options = .ok t ∧ (p.node t).Valid w) : n.Valid w := by
  refine .intro hsound (fun p hp => ?_) fun p hp t ht => ?_
  · obtain ⟨t, ht, -⟩ := hparts p hp
    exact ⟨t, ht⟩
  · obtain ⟨t', ht', hvalid⟩ := hparts p hp
    rw [ht] at ht'
    cases ht'
    exact hvalid

end Node

/-- Whether a part is accepted: its schema resolves, and its node is valid. -/
def Part.Valid (w : Workshop) (p : Part) : Prop :=
  ∃ t, w.resolve p.schema p.value p.options = .ok t ∧ (p.node t).Valid w

/-- Whether the own checks of a node pass in a mode, and those of all nodes below it. -/
inductive Node.Accepted (w : Workshop) (sync : Bool) : Node → Prop where
  | intro {n : Node} :
      (n.own sync).result = .ok () →
      (∀ p ∈ n.parts, ∃ t, w.resolve p.schema p.value p.options = .ok t) →
      (∀ p ∈ n.parts, ∀ t, w.resolve p.schema p.value p.options = .ok t →
        Accepted w sync (p.node t)) →
      Accepted w sync n

/-- Whether the schema of a part resolves and its node is accepted. -/
def Part.Accepted (w : Workshop) (sync : Bool) (p : Part) : Prop :=
  ∃ t, w.resolve p.schema p.value p.options = .ok t ∧ (p.node t).Accepted w sync

/-- A node is accepted if its own checks pass and its parts are accepted. -/
theorem Node.accepted_iff {w : Workshop} {sync : Bool} {n : Node} :
    n.Accepted w sync ↔
      (n.own sync).result = .ok () ∧ ∀ p ∈ n.parts, p.Accepted w sync := by
  constructor
  · rintro ⟨hown, hresolves, hparts⟩
    refine ⟨hown, fun p hp => ?_⟩
    obtain ⟨t, ht⟩ := hresolves p hp
    exact ⟨t, ht, hparts p hp t ht⟩
  · rintro ⟨hown, hparts⟩
    refine .intro hown (fun p hp => ?_) fun p hp t ht => ?_
    · obtain ⟨t, ht, -⟩ := hparts p hp
      exact ⟨t, ht⟩
    · obtain ⟨t', ht', haccepted⟩ := hparts p hp
      cases ht.symm.trans ht'
      exact haccepted

namespace Node

/-! ## Own checks -/

variable {n : Node}

theorem outcome_typed {t : Test} (h : t.predicate = .check .typed) :
    t.outcome n.subject = .pass ↔ ∀ v, n.value = some v → n.schema.isType v = true := by
  have hholds : Check.typed.holds ⟨t.toTestHead, n.subject⟩ = n.value.all n.schema.isType := rfl
  rw [Test.outcome, h, Predicate.judge, Check.judge, hholds]
  cases n.value <;> simp

theorem isListed_iff (head : TestHead) {set : EntrySet} :
    TestContext.isListed ⟨head, n.subject⟩ set = true ↔ n.Lists set := by
  have hvalue : TestContext.value ⟨head, n.subject⟩ = n.value := rfl
  rw [TestContext.isListed, Lists, hvalue]
  cases n.value with
  | none => simp
  | some v => exact ⟨fun h => ⟨v, rfl, h⟩, by rintro ⟨u, hu, h⟩; cases hu; exact h⟩

theorem outcome_allowed {t : Test} (h : t.predicate = .check .allowed) :
    t.outcome n.subject = .pass ↔
      n.value = none ∨ n.schema.traits.allow.isEmpty = true ∨ n.Lists n.schema.traits.allow := by
  have hholds : Check.allowed.holds ⟨t.toTestHead, n.subject⟩ =
      (n.value.isNone || n.schema.traits.allow.isEmpty ||
        TestContext.isListed ⟨t.toTestHead, n.subject⟩ n.schema.traits.allow) := rfl
  rw [Test.outcome, h, Predicate.judge, Check.judge, hholds, ← isListed_iff t.toTestHead]
  split <;> simp_all [or_assoc]

theorem outcome_notDenied {t : Test} (h : t.predicate = .check .notDenied) :
    t.outcome n.subject = .pass ↔ ¬ n.Lists n.schema.traits.deny := by
  have hholds : Check.notDenied.holds ⟨t.toTestHead, n.subject⟩ =
      !TestContext.isListed ⟨t.toTestHead, n.subject⟩ n.schema.traits.deny := rfl
  rw [Test.outcome, h, Predicate.judge, Check.judge, hholds, ← isListed_iff t.toTestHead]
  split <;> simp_all

theorem mem_prerequisites {traits : Traits} {t : Test} :
    t ∈ traits.prerequisites ↔
      t = traits.typeError ∨ traits.allowCheck = some t ∨ traits.denyCheck = some t := by
  simp [Traits.prerequisites]

/-- The checks of type and lists are built in. -/
theorem check_of_prerequisite {C : RecipeClass} {s : Schema} (hs : s.Regular C) {t : Test}
    (ht : t ∈ s.traits.prerequisites) : ∃ c, t.predicate = .check c := by
  rcases mem_prerequisites.mp ht with rfl | hallow | hdeny
  · exact ⟨_, hs.typeError⟩
  · exact ⟨_, hs.allowCheck t hallow⟩
  · exact ⟨_, hs.denyCheck t hdeny⟩

/-- The own checks pass exactly if the node is valid by itself. -/
theorem own_result_eq_ok_iff_sound {C : RecipeClass} (hn : n.schema.Regular C) :
    (n.own true).result = .ok () ↔ n.Sound := by
  rw [own_result_eq_ok]
  constructor
  · rintro ⟨hpre, htests⟩
    refine ⟨?_, ?_, ?_, htests⟩
    · exact (outcome_typed hn.typeError).mp (hpre _ (mem_prerequisites.mpr (Or.inl rfl)))
    · intro hsome
      obtain ⟨t, ht⟩ := Option.isSome_iff_exists.mp hsome
      exact (outcome_allowed (hn.allowCheck t ht)).mp
        (hpre t (mem_prerequisites.mpr (Or.inr (Or.inl ht))))
    · intro hsome
      obtain ⟨t, ht⟩ := Option.isSome_iff_exists.mp hsome
      exact (outcome_notDenied (hn.denyCheck t ht)).mp
        (hpre t (mem_prerequisites.mpr (Or.inr (Or.inr ht))))
  · intro hsound
    refine ⟨fun t ht => ?_, hsound.tests⟩
    rcases mem_prerequisites.mp ht with rfl | hallow | hdeny
    · exact (outcome_typed hn.typeError).mpr hsound.typed
    · exact (outcome_allowed (hn.allowCheck t hallow)).mpr (hsound.allowed (by simp [hallow]))
    · exact (outcome_notDenied (hn.denyCheck t hdeny)).mpr (hsound.denied (by simp [hdeny]))

end Node

-- ============================================================================
-- Acceptance
-- ============================================================================

namespace Workshop

variable {C : RecipeClass} {w : Workshop}

/-- A part is accepted by its job exactly if it is accepted, where that holds of its node. -/
theorem part_result_eq_ok_iff_of_node {sync : Bool} {p : Part}
    (hstrict : p.options.strict = some true) {depth : Nat}
    (hnode : ∀ t, w.resolve p.schema p.value p.options = .ok t → ∀ a,
      (((p.node t).run sync (w.validateWithin sync depth)).result = .ok a ↔
        a = p.value ∧ (p.node t).Accepted w sync)) :
    (∃ a, (p.job (w.validateWithin sync (depth + 1))).result = .ok a) ↔ p.Accepted w sync := by
  constructor
  · rintro ⟨a, ha⟩
    rw [part_result hstrict] at ha
    obtain ⟨t, ht, hrun⟩ := bind_eq_ok.mp ha
    exact ⟨t, ht, ((hnode t ht a).mp hrun).2⟩
  · rintro ⟨t, ht, haccepted⟩
    refine ⟨p.value, ?_⟩
    rw [part_result hstrict]
    exact bind_eq_ok.mpr ⟨t, ht, (hnode t ht p.value).mpr ⟨rfl, haccepted⟩⟩

/-- A run succeeds exactly if its node is accepted. The induction is on the depth that
    the run may go down by; parts are lower than their node. -/
theorem run_result_eq_ok_iff_accepted (hw : w.Equipped C) {sync : Bool} {depth : Nat} {n : Node}
    (hn : n.schema.WellMade C) (hdepth : Value.heightOf n.value ≤ depth) {r : Option Value} :
    (n.run sync (w.validateWithin sync depth)).result = .ok r ↔
      r = n.value ∧ n.Accepted w sync := by
  induction depth generalizing n r with
  | zero =>
      rw [Node.run_result_eq_ok hn.here.shape, Node.accepted_iff]
      have hnone : ∀ p ∈ n.parts, False := by
        intro p hp
        have hlt := Node.heightOf_part hp
        omega
      constructor
      · rintro ⟨hr, hown, -⟩
        exact ⟨hr, hown, fun p hp => (hnone p hp).elim⟩
      · rintro ⟨hr, hown, -⟩
        exact ⟨hr, hown, fun p hp => (hnone p hp).elim⟩
  | succ depth ih =>
      rw [Node.run_result_eq_ok hn.here.shape, Node.accepted_iff]
      have hpart : ∀ p ∈ n.parts,
          (∃ a, (p.job (w.validateWithin sync (depth + 1))).result = .ok a) ↔
            p.Accepted w sync := by
        intro p hp
        have hlt := Node.heightOf_part hp
        have hschema := Node.everywhere_part hn hp
        refine part_result_eq_ok_iff_of_node (Node.strict_part hp) fun t ht a => ?_
        refine ih (resolve_wellMade hw hschema ht) ?_
        show Value.heightOf p.value ≤ depth
        omega
      constructor
      · rintro ⟨hr, hown, hparts⟩
        exact ⟨hr, hown, fun p hp => (hpart p hp).mp (hparts p hp)⟩
      · rintro ⟨hr, hown, hparts⟩
        exact ⟨hr, hown, fun p hp => (hpart p hp).mpr (hparts p hp)⟩

/-- Without waiting, the accepted nodes are the valid ones. -/
theorem accepted_iff_valid (hw : w.Equipped C) {n : Node} (hn : n.schema.WellMade C) :
    n.Accepted w true ↔ n.Valid w := by
  constructor
  · intro h
    induction h with
    | @intro n hown hresolves _ ih =>
        refine .intro ((Node.own_result_eq_ok_iff_sound hn.here).mp hown) hresolves ?_
        exact fun p hp t ht =>
          ih p hp t ht (resolve_wellMade hw (Node.everywhere_part hn hp) ht)
  · intro h
    induction h with
    | @intro n hsound hresolves _ ih =>
        refine .intro ((Node.own_result_eq_ok_iff_sound hn.here).mpr hsound) hresolves ?_
        exact fun p hp t ht =>
          ih p hp t ht (resolve_wellMade hw (Node.everywhere_part hn hp) ht)

/-- A node is accepted by a synchronous run exactly if it is valid. -/
theorem run_result_eq_ok_iff_valid (hw : w.Equipped C) {depth : Nat} {n : Node}
    (hn : n.schema.WellMade C) (hdepth : Value.heightOf n.value ≤ depth) {r : Option Value} :
    (n.run true (w.validateWithin true depth)).result = .ok r ↔ r = n.value ∧ n.Valid w := by
  rw [run_result_eq_ok_iff_accepted hw hn hdepth, accepted_iff_valid hw hn]

/-- A part of a node is accepted by its job exactly if it is valid. -/
theorem part_accepted_iff (hw : w.Equipped C) {n : Node} (hn : n.schema.WellMade C) {p : Part}
    (hp : p ∈ n.parts) {depth : Nat} (hdepth : Value.heightOf n.value ≤ depth + 1) :
    (∃ a, (p.job (w.validateWithin true (depth + 1))).result = .ok a) ↔ p.Valid w := by
  have hlt := Node.heightOf_part hp
  have hmade {t : Schema} (ht : w.resolve p.schema p.value p.options = .ok t) : t.WellMade C :=
    resolve_wellMade hw (Node.everywhere_part hn hp) ht
  rw [part_result_eq_ok_iff_of_node (Node.strict_part hp) fun t ht a =>
    run_result_eq_ok_iff_accepted hw (hmade ht) (show Value.heightOf p.value ≤ depth by omega)]
  exact exists_congr fun t => and_congr_right fun ht => accepted_iff_valid hw (hmade ht)

/-- A call in one of the two modes. -/
def call (w : Workshop) (sync : Bool) (s : Schema) (value : Option Value)
    (options : CallOptions) : Result (Option Value) :=
  if sync then w.validateSync s value options else w.validate s value options

/-- A call succeeds exactly if the node that is entered is accepted, and then gives the
    value of the node. -/
theorem call_eq_ok (hw : w.Equipped C) {sync : Bool} {s : Schema} (hs : s.WellMade C)
    {value : Option Value} {options : CallOptions} {r : Option Value} :
    w.call sync s value options = .ok r ↔
      ∃ n, w.enter (root s value options) = .ok n ∧ r = n.value ∧ n.Accepted w sync := by
  have hcall : w.call sync s value options = w.enter (root s value options) >>= fun n =>
      (n.run sync (w.validateWithin sync (Value.heightOf n.value))).result := by
    cases sync with
    | true => exact validateSync_eq hw hs value options
    | false =>
        show w.validate s value options = _
        rw [validate, validateJob_eq, Job.bind_result, Job.done_result]
  rw [hcall, bind_eq_ok]
  exact exists_congr fun n => and_congr_right fun hn =>
    run_result_eq_ok_iff_accepted hw (enter_wellMade hw hs hn) (Nat.le_refl _)

/-- A synchronous validation succeeds exactly if the node that is entered is valid,
    and then gives the value of the node. -/
theorem validateSync_eq_ok_iff_enter (hw : w.Equipped C) {s : Schema} (hs : s.WellMade C)
    {value : Option Value} {options : CallOptions} {r : Option Value} :
    w.validateSync s value options = .ok r ↔
      ∃ n, w.enter (root s value options) = .ok n ∧ r = n.value ∧ n.Valid w := by
  rw [show w.validateSync s value options = w.call true s value options from rfl, call_eq_ok hw hs]
  exact exists_congr fun n => and_congr_right fun hn => and_congr_right fun _ =>
    accepted_iff_valid hw (enter_wellMade hw hs hn)

/-- Acceptance is the conjunction of all checks: the schema resolves, the value is
    the input itself or its cast, and it is valid at every depth. -/
theorem validateSync_eq_ok {w : Workshop} (hw : w.Reachable .all) {s : Schema}
    (hs : s.Made .all) (value : Option Value) (options : CallOptions) (r : Option Value) :
    w.validateSync s value options = .ok r ↔
      ∃ t, w.resolve s value options = .ok t ∧
        (if (Mode.of options t.traits.options).strict = true then r = value
          else w.castResolved (t.tag == .object) t value (castOptions options) = .ok r) ∧
        Node.Valid w { schema := t, value := r, raw := rawOf value none, options } := by
  rw [validateSync_eq_ok_iff_enter hw.equipped hs.wellMade]
  rw [enter, root]
  constructor
  · rintro ⟨n, hn, rfl, hvalid⟩
    obtain ⟨t, ht, hn⟩ := bind_eq_ok.mp hn
    obtain ⟨checked, hchecked, hn⟩ := bind_eq_ok.mp hn
    cases hn
    refine ⟨t, ht, ?_, hvalid⟩
    rw [checkedValue] at hchecked
    split
    · next hstrict =>
        rw [if_pos hstrict] at hchecked
        exact (Except.ok.inj hchecked).symm
    · next hstrict =>
        rw [if_neg hstrict] at hchecked
        exact hchecked
  · rintro ⟨t, ht, hr, hvalid⟩
    refine ⟨{ schema := t, value := r, raw := rawOf value none, options }, ?_, rfl, hvalid⟩
    have hchecked : w.checkedValue t (Mode.of options t.traits.options).strict value options =
        .ok r := by
      rw [checkedValue]
      split at hr
      · next hstrict => rw [if_pos hstrict, hr]
      · next hstrict =>
          rw [if_neg hstrict]
          exact hr
    refine bind_eq_ok.mpr ⟨t, ht, ?_⟩
    exact bind_eq_ok.mpr ⟨r, hchecked, rfl⟩

/-- An object with a number in its only field is accepted as it stands, and so it is
    valid. -/
theorem validateSync_eq_ok_object :
    ∃ s, initial.build none
        (.make .object [.shape [("a", .make .number [.required])] []]) = .ok s ∧
      ∃ t, initial.resolve s (some (.obj [("a", .int 1)]))
          { CallOptions.none with strict := some true } = .ok t ∧
        Node.Valid initial
          { schema := t
            value := some (.obj [("a", .int 1)])
            raw := some (.obj [("a", .int 1)])
            options := { CallOptions.none with strict := some true } } := by
  refine ⟨_, rfl, ?_⟩
  have hmade := validateSync_eq_ok .initial
    ⟨initial, none, .make .object [.shape [("a", .make .number [.required])] []], .initial, trivial,
      rfl⟩
    (some (.obj [("a", .int 1)])) { CallOptions.none with strict := some true }
    (some (.obj [("a", .int 1)]))
  obtain ⟨t, ht, -, hvalid⟩ := hmade.mp rfl
  exact ⟨t, ht, hvalid⟩

end Workshop

end Conform
