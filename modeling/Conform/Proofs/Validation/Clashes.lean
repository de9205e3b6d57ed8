/-
  Conform.Proofs.Validation.Clashes

  Mismatches of kinds and cycles of fields that show only when a value is examined.
  The schemas of branches are kept as they are, and one is concatenated when its
  condition selects it: onto the schema with the branches that the conditions before
  have selected. Where the conditions do nothing but concatenate and no schema is
  lazy, every mismatch and every cycle that a cast or a validation ends with is that
  of such a concatenation.
-/

import Conform.Proofs.Schema.Concatenation
import Conform.Proofs.Validation.FieldConditions
import Conform.Proofs.Validation.Failures

namespace Conform

/-- The failures of concatenations. -/
inductive Failure.IsClash : Failure → Prop where
  | kinds (left right : KindTag) : IsClash (.kindMismatch left right)
  | cycle (node : String) : IsClash (.cyclicDependency node)

-- ============================================================================
-- Branches that concatenate
-- ============================================================================

namespace Rule

/-- Whether all branches of a rule concatenate schemas. -/
def Joins (rule : Rule Schema Recipe Step) : Prop :=
  ∃ guard yes no, rule = .guarded guard yes no ∧ (∀ decide, yes ≠ some (.map decide)) ∧
    ∀ decide, no ≠ some (.map decide)

/-- The branch that a rule selects for the values that it looks at. -/
def selected? (rule : Rule Schema Recipe Step) (values : List (Option Value)) :
    Option (Branch Schema Recipe Step) :=
  match rule with
  | .guarded guard yes no => if guard.ask values then yes else no
  | .resolver _ => none

theorem Joins.selected?_cases {rule : Rule Schema Recipe Step} (h : rule.Joins)
    (values : List (Option Value)) :
    rule.selected? values = none ∨
      ∃ t ∈ rule.joined, rule.selected? values = some (.join t) := by
  obtain ⟨guard, yes, no, rfl, hyes, hno⟩ := h
  have hbranch : ∀ branch ∈ [yes, no], branch = none ∨
      ∃ t ∈ (Rule.guarded guard yes no : Rule Schema Recipe Step).joined,
        branch = some (.join t) := by
    intro branch hmem
    cases branch with
    | none => exact Or.inl rfl
    | some b =>
        cases b with
        | join t => exact Or.inr ⟨t, List.mem_filterMap.mpr ⟨_, hmem, rfl⟩, rfl⟩
        | map decide =>
            rcases List.mem_pair.mp hmem with heq | heq
            · exact absurd heq.symm (hyes decide)
            · exact absurd heq.symm (hno decide)
  rw [selected?]
  split
  · exact hbranch yes (by simp)
  · exact hbranch no (by simp)

end Rule

/-- Whether a schema is not lazy, and its conditions do nothing but concatenate. -/
structure Schema.Branching (s : Schema) : Prop where
  eager : ∀ pick, s.kind ≠ .lazy pick
  joins : ∀ c ∈ s.conditions, c.rule.Joins

/-- Whether a condition selects a branch that cannot be concatenated onto the schema with
    the branches that the conditions before have selected. -/
def Evaluation.Clashes (w : Workshop) (a : Evaluation) (e : Failure) : Prop :=
  ∃ before c after base t, a.schema.conditions = before ++ c :: after ∧
    w.takeConditions w.conditionsMark 0 a.options.parent a.options.context
      a.schema.clearConditions before = .ok base ∧
    c.rule.selected? (c.values a.options.parent a.options.context) = some (.join t) ∧
    base.concat t = .error e

namespace Workshop

variable {w : Workshop} {s t : Schema} {value : Option Value} {options : CallOptions} {e : Failure}

theorem takeRule_eq {rule : Rule Schema Recipe Step} (h : rule.Joins) (mark : Option Mark)
    (base : Schema) (values : List (Option Value)) :
    w.takeRule mark base values rule = w.takeBranch mark base (rule.selected? values) := by
  obtain ⟨guard, yes, no, rfl, -, -⟩ := h
  rfl

/-- A rule that only concatenates fails as the concatenation of the selected branch. -/
theorem takeRule_eq_error_iff {rule : Rule Schema Recipe Step} (h : rule.Joins)
    {mark : Option Mark} {base : Schema} {values : List (Option Value)} :
    w.takeRule mark base values rule = .error e ↔
      ∃ t, rule.selected? values = some (.join t) ∧ base.concat t = .error e := by
  rw [takeRule_eq h]
  rcases h.selected?_cases values with hnone | ⟨t, -, ht⟩
  · rw [hnone]
    simp [takeBranch]
  · rw [ht]
    simp [takeBranch]

/-- Conditions that fail do so at the first of them that does. -/
theorem takeConditions_eq_error_iff {mark : Option Mark} {position : Nat}
    {parent context : Option Value} {base : Schema} {conditions : List (Condition Schema)} :
    w.takeConditions mark position parent context base conditions = .error e ↔
      ∃ before c after next, conditions = before ++ c :: after ∧
        w.takeConditions mark position parent context base before = .ok next ∧
        w.takeRule (part mark (position + before.length)) next (c.values parent context) c.rule =
          .error e := by
  induction conditions generalizing base position with
  | nil => simp [takeConditions]
  | cons c rest ih =>
      rw [takeConditions, bind_eq_error]
      constructor
      · rintro (hc | ⟨next, hc, hrest⟩)
        · exact ⟨[], c, rest, base, rfl, rfl, hc⟩
        · obtain ⟨before, d, after, last, rfl, hbefore, hd⟩ := ih.mp hrest
          refine ⟨c :: before, d, after, last, rfl, ?_, ?_⟩
          · rw [takeConditions]
            exact bind_eq_ok.mpr ⟨next, hc, hbefore⟩
          · rwa [List.length_cons, ← Nat.add_assoc, Nat.add_right_comm]
      · rintro ⟨before, d, after, last, hsplit, hbefore, hd⟩
        cases before with
        | nil =>
            cases hsplit
            cases hbefore
            exact Or.inl hd
        | cons _ before =>
            cases hsplit
            rw [takeConditions] at hbefore
            obtain ⟨next, hc, hbefore⟩ := bind_eq_ok.mp hbefore
            refine Or.inr ⟨next, hc, ih.mpr ⟨before, d, after, last, rfl, hbefore, ?_⟩⟩
            rwa [List.length_cons, ← Nat.add_assoc, Nat.add_right_comm] at hd

/-- A schema does not resolve exactly if a selected branch clashes. -/
theorem resolve_eq_error_iff (hs : s.Branching) :
    w.resolve s value options = .error e ↔ Evaluation.Clashes w ⟨s, value, options⟩ e := by
  rw [resolve_eager hs.eager]
  constructor
  · intro h
    rcases bind_eq_error.mp h with htaken | ⟨taken, -, h⟩
    · obtain ⟨before, c, after, base, hsplit, hbefore, hc⟩ :=
        takeConditions_eq_error_iff.mp htaken
      have hjoins : c.rule.Joins := hs.joins c (by simp [hsplit])
      obtain ⟨t, hselected, hconcat⟩ := (takeRule_eq_error_iff hjoins).mp hc
      exact ⟨before, c, after, base, t, hsplit, hbefore, hselected, hconcat⟩
    · exact absurd h (by simp)
  · rintro ⟨before, c, after, base, t, hsplit, hbefore, hselected, hconcat⟩
    have hsplit : s.conditions = before ++ c :: after := hsplit
    have hjoins : c.rule.Joins := hs.joins c (by simp [hsplit])
    exact bind_eq_error.mpr (Or.inl (takeConditions_eq_error_iff.mpr
      ⟨before, c, after, base, hsplit, hbefore,
        (takeRule_eq_error_iff hjoins).mpr ⟨t, hselected, hconcat⟩⟩))

end Workshop

-- ============================================================================
-- Schemas of evaluations
-- ============================================================================

namespace Schema

variable {s t : Schema}

theorem Branching.concat : ConcatKeeps Branching := by
  intro a b c ha hb h
  obtain ⟨kind, hkind, rfl⟩ := concat_eq h
  constructor
  case eager =>
    intro pick heq
    rcases concatKind_cases hkind with rfl | rfl | ⟨_, _, _, _, _, _, _, rfl⟩ | ⟨_, rfl⟩
    · exact ha.eager pick heq
    · exact hb.eager pick heq
    · exact absurd heq (by simp)
    · exact absurd heq (by simp)
  case joins =>
    intro c hc
    rcases List.mem_append.mp hc with hleft | hright
    · exact ha.joins c hleft
    · exact hb.joins c hright

theorem Branching.clearConditions (h : s.Everywhere Branching) :
    s.clearConditions.Everywhere Branching :=
  h.clearConditions ⟨h.here.eager, by simp [Schema.clearConditions]⟩

/-- A schema without conditions. -/
theorem Branching.of_unconditional (heager : ∀ pick, s.kind ≠ .lazy pick)
    (hkind : KindHolds (Everywhere Branching) s.kind) (hconditions : s.conditions = []) :
    s.Everywhere Branching :=
  .of_children ⟨heager, by simp [hconditions]⟩ hkind (by simp [hconditions])

/-- A schema with one condition, which has one branch. -/
theorem Branching.of_condition {c : Condition Schema} {guard : Guard}
    (heager : ∀ pick, s.kind ≠ .lazy pick) (hkind : KindHolds (Everywhere Branching) s.kind)
    (hconditions : s.conditions = [c]) (hc : c.rule = .guarded guard (some (.join t)) none)
    (ht : t.Everywhere Branching) : s.Everywhere Branching := by
  have hjoined : c.rule.joined = [t] := by
    rw [hc]
    rfl
  refine .of_children ⟨heager, ?_⟩ hkind ?_
  · intro d hd
    cases List.mem_singleton.mp (hconditions ▸ hd)
    exact ⟨_, _, _, hc, by simp, by simp⟩
  · intro d hd u hu
    cases List.mem_singleton.mp (hconditions ▸ hd)
    cases List.mem_singleton.mp (hjoined ▸ hu)
    exact ht

/-- Schemas whose kinds do not go together are not concatenated. -/
theorem concat_of_incompatible (h : s.tag.compatible t.tag = false) :
    s.concat t = .error (.kindMismatch s.tag t.tag) :=
  concat_eq_error_iff.mpr (Or.inl ⟨h, rfl⟩)

/-- Objects whose fields together have no order are not concatenated. -/
theorem concat_of_unsorted {left right : Shape Schema} {fields : List (String × Schema)}
    {e : Failure} (hs : s.kind = .object left) (ht : t.kind = .object right)
    (hfields : concatFields left.fields right.fields = .ok fields)
    (hsorted : Shape.sorted fields (left.excluded ++ right.excluded) = .error e) :
    s.concat t = .error e := by
  have hcompatible : s.tag.compatible t.tag = true := by
    rw [Schema.tag, Schema.tag, hs, ht]
    rfl
  have hkind : concatKind s.kind t.kind = .error e := by
    rw [concatKind.eq_def, hs, ht]
    exact bind_eq_error.mpr (Or.inr ⟨fields, hfields, bind_eq_error.mpr (Or.inl hsorted)⟩)
  exact concat_eq_error_iff.mpr (Or.inr ⟨hcompatible, hkind⟩)

end Schema

namespace Workshop

variable {w : Workshop} {s t : Schema} {value : Option Value} {options : CallOptions} {e : Failure}

theorem takeConditions_branching {mark : Option Mark} {position : Nat}
    {parent context : Option Value} {conditions : List (Condition Schema)} (hjoins : ∀ c ∈ conditions, c.rule.Joins)
    (hjoined : ∀ c ∈ conditions, ∀ u ∈ c.rule.joined, u.Everywhere Schema.Branching)
    (hs : s.Everywhere Schema.Branching)
    (h : w.takeConditions mark position parent context s conditions = .ok t) :
    t.Everywhere Schema.Branching := by
  induction conditions generalizing s position with
  | nil =>
      cases h
      exact hs
  | cons c rest ih =>
      rw [takeConditions] at h
      obtain ⟨between, hbetween, h⟩ := bind_eq_ok.mp h
      have hc : between.Everywhere Schema.Branching := by
        rw [takeRule_eq (hjoins c List.mem_cons_self)] at hbetween
        rcases (hjoins c List.mem_cons_self).selected?_cases (c.values parent context) with
          hnone | ⟨u, hu, hselected⟩
        · rw [hnone] at hbetween
          cases hbetween
          exact hs
        · rw [hselected] at hbetween
          exact .concat Schema.Branching.concat hs (hjoined c List.mem_cons_self u hu) hbetween
      exact ih (fun d hd => hjoins d (List.mem_cons_of_mem _ hd))
        (fun d hd => hjoined d (List.mem_cons_of_mem _ hd)) hc h

/-- Resolution brings in nothing but what the branches hold. -/
theorem resolve_branching (hs : s.Everywhere Schema.Branching)
    (h : w.resolve s value options = .ok t) : t.Everywhere Schema.Branching := by
  rw [resolve_eager hs.here.eager] at h
  obtain ⟨taken, htaken, h⟩ := bind_eq_ok.mp h
  cases h
  have htaken' : taken.Everywhere Schema.Branching :=
    takeConditions_branching hs.here.joins (fun c hc u hu => hs.nested (.branch hc hu))
      (Schema.Branching.clearConditions hs) htaken
  exact Schema.Branching.clearConditions htaken'

-- ============================================================================
-- Calls
-- ============================================================================

/-- A clash that a cast ends with is that of a schema that the cast comes to. -/
theorem exists_clash_of_castResolved {validating : Bool} (hs : s.Everywhere Schema.Branching)
    (he : e.IsClash) (ht : w.resolve s value options = .ok t)
    (h : w.castResolved validating t value options = .error e) :
    ∃ a, Evaluation.Casts w ⟨s, value, options⟩ a ∧ a.Clashes w e := by
  have hmismatch : ∀ path kind value result, e ≠ .castMismatch path kind value result := by
    rintro path kind value result rfl
    cases he
  have hdeep : e ≠ .tooDeep := by
    rintro rfl
    cases he
  obtain ⟨a, ha, hfails⟩ :=
    exists_of_castWithin_error (a := ⟨s, value, options⟩) ht hmismatch hdeep h
  have hbranching : a.schema.Everywhere Schema.Branching := ha.everywhere resolve_branching hs
  exact ⟨a, ha, (resolve_eq_error_iff hbranching.here).mp hfails⟩

theorem exists_clash_of_cast (hs : s.Everywhere Schema.Branching) (he : e.IsClash)
    (h : w.cast s value options = .error e) :
    ∃ a, Evaluation.Casts w ⟨s, value, options⟩ a ∧ a.Clashes w e := by
  rcases bind_eq_error.mp h with hresolve | ⟨t, ht, hcast⟩
  · exact ⟨_, .here, (resolve_eq_error_iff hs.here).mp hresolve⟩
  · exact exists_clash_of_castResolved hs he ht hcast

/-- A clash that ends the entry of a call is that of the schema itself, or of one that
    the cast comes to. -/
theorem exists_clash_of_enter (hs : s.Everywhere Schema.Branching) (he : e.IsClash)
    (h : w.enter (root s value options) = .error e) :
    ∃ a, Evaluation.Casts w ⟨s, value, castOptions options⟩ a ∧ a.Clashes w e := by
  rw [enter] at h
  rcases bind_eq_error.mp h with hresolve | ⟨t, ht, h⟩
  · -- the options of the cast have the same parent and the same context
    have hclash : Evaluation.Clashes w ⟨s, value, options⟩ e :=
      (resolve_eq_error_iff hs.here).mp hresolve
    exact ⟨_, .here, hclash⟩
  rcases bind_eq_error.mp h with hchecked | ⟨checked, -, h⟩
  · have ht : w.resolve s value options = .ok t := ht
    have hsame : w.resolve s value (castOptions options) = .ok t := by
      rw [resolve_eager hs.here.eager] at ht ⊢
      exact ht
    rw [checkedValue] at hchecked
    split at hchecked
    · exact absurd hchecked (by simp)
    · exact exists_clash_of_castResolved hs he hsame hchecked
  · exact absurd h (by simp [pure, Except.pure])

/-- A clash that ends a run is that of a part of a node that the run comes to. -/
theorem exists_clash_of_run {C : RecipeClass} (hw : w.Equipped C) {n : Node}
    (hmade : n.schema.WellMade C) (hn : n.schema.Everywhere Schema.Branching) (he : e.IsClash)
    {sync : Bool}
    (h : (n.run sync (w.validateWithin sync (Value.heightOf n.value))).result = .error e) :
    ∃ m p, n.Visits w m ∧ p ∈ m.parts ∧ p.evaluation.Clashes w e := by
  have hmistake : ∀ v, e ≠ .violation v := by
    rintro v rfl
    cases he
  obtain ⟨m, hm, hcause⟩ := exists_visit_of_mistake hw hmade (Nat.le_refl _) hmistake h
  rcases hcause with ⟨x, -, hfails⟩ | ⟨p, hp, hfails⟩
  · -- a test that is refused for being pending is no clash
    obtain ⟨-, -, rfl⟩ := Test.run_eq_mistake hfails hmistake
    cases he
  · have hpart := Node.everywhere_part (hm.everywhere resolve_branching hn) hp
    exact ⟨m, p, hm, hp, (resolve_eq_error_iff hpart.here).mp hfails⟩

/-- Where selected branches of the schema itself clash, every call fails so. -/
theorem calls_of_clash {C : RecipeClass} (hw : w.Equipped C) (hs : s.WellMade C)
    (hbranching : s.Branching) (h : Evaluation.Clashes w ⟨s, value, options⟩ e) :
    w.cast s value options = .error e ∧ w.validate s value options = .error e ∧
      w.validateSync s value options = .error e := by
  have hresolve : w.resolve s value options = .error e := (resolve_eq_error_iff hbranching).mpr h
  have henter : w.enter (root s value options) = .error e := bind_eq_error.mpr (Or.inl hresolve)
  refine ⟨bind_eq_error.mpr (Or.inl hresolve), ?_, ?_⟩
  · rw [validate, validateJob_eq, henter]
    rfl
  · rw [validateSync_eq hw hs, henter]
    rfl

/-- Where conditions do nothing but concatenate and no schema is lazy, a mismatch of
    kinds or a cycle that a call ends with is that of a selected branch: of a schema that
    the cast comes to, or of a part that the validation comes to. Where the branches of
    the schema itself clash, every call fails so. -/
theorem clashes_come_from_branches (hw : w.Reachable .all) (hs : s.Obtained)
    (hbranching : s.Everywhere Schema.Branching) (value : Option Value) (options : CallOptions)
    (he : e.IsClash) :
    (w.cast s value options = .error e →
      ∃ a, Evaluation.Casts w ⟨s, value, options⟩ a ∧ a.Clashes w e) ∧
    (w.validate s value options = .error e ∨ w.validateSync s value options = .error e →
      (∃ a, Evaluation.Casts w ⟨s, value, castOptions options⟩ a ∧ a.Clashes w e) ∨
      ∃ n m p, w.enter (root s value options) = .ok n ∧ n.Visits w m ∧ p ∈ m.parts ∧
        p.evaluation.Clashes w e) ∧
    (Evaluation.Clashes w ⟨s, value, options⟩ e →
      w.cast s value options = .error e ∧ w.validate s value options = .error e ∧
        w.validateSync s value options = .error e) := by
  refine ⟨exists_clash_of_cast hbranching he, fun h => ?_,
    calls_of_clash hw.equipped hs.wellMade hbranching.here⟩
  obtain ⟨sync, hcall⟩ := call_eq_error hw.equipped hs.wellMade h
  rcases bind_eq_error.mp hcall with henter | ⟨n, hn, hrun⟩
  · exact Or.inl (exists_clash_of_enter hbranching he henter)
  · have hmade := enter_wellMade hw.equipped hs.wellMade hn
    have hnode : n.schema.Everywhere Schema.Branching :=
      resolve_branching hbranching (enter_eq_ok hn).1
    obtain ⟨m, p, hm, hp, hclash⟩ := exists_clash_of_run hw.equipped hmade hnode he hrun
    exact Or.inr ⟨n, m, p, hn, hm, hp, hclash⟩

/-- A mixed schema with a condition on the value of a sibling. -/
def mixedReading (key : String) : Recipe :=
  .make .mixed [.when [Reference.ofKey key]
    (.guarded (.equal .null) (some (.join (.plain .mixed))) none)]

/-- An object with a field that reads another one, which a branch brings in. The field
    that is brought in reads the first one. -/
def cyclicWhereFlagged : Recipe :=
  .make .object [.shape [("a", mixedReading "b")] [],
    .when [Reference.ofKey "$f"] (.guarded (.equal (.bool true))
      (some (.join (.make .object [.shape [("b", mixedReading "a")] []]))) none)]

theorem mixedReading_branching {key : String} (h : initial.build none (mixedReading key) = .ok s) :
    s.Everywhere Schema.Branching := by
  obtain ⟨r, t, c, hr, hkind, hconditions, hc, htkind, htconditions⟩ :
      ∃ r t c, initial.build none (mixedReading key) = .ok r ∧ r.kind = .mixed ∧
        r.conditions = [c] ∧ c.rule = .guarded (.equal .null) (some (.join t)) none ∧
        t.kind = .mixed ∧ t.conditions = [] :=
    ⟨_, _, _, rfl, rfl, rfl, rfl, rfl, rfl⟩
  cases hr.symm.trans h
  have ht : t.Everywhere Schema.Branching :=
    Schema.Branching.of_unconditional (by simp [htkind]) ⟨by simp [htkind], by simp [htkind]⟩ htconditions
  exact Schema.Branching.of_condition (by simp [hkind]) ⟨by simp [hkind], by simp [hkind]⟩
    hconditions hc ht

/-- Where the flag is set, the two fields read each other, and every call fails so. -/
theorem clashes_come_from_branches_cycle :
    ∃ s a, initial.build none cyclicWhereFlagged = .ok s ∧
      initial.cast s (some (.obj []))
          { CallOptions.none with context := some (.obj [("f", .bool true)]) } =
        .error (.cyclicDependency "a") ∧
      Evaluation.Casts initial
        ⟨s, some (.obj []), { CallOptions.none with context := some (.obj [("f", .bool true)]) }⟩ a ∧
      a.Clashes initial (.cyclicDependency "a") := by
  obtain ⟨s, t, a, b, c, hs, ha, hb, hkind, hconditions, hc, htkind, htconditions, hselected,
      hcyclic⟩ :
      ∃ s t a b c, initial.build none cyclicWhereFlagged = .ok s ∧
        initial.build none (mixedReading "b") = .ok a ∧
        initial.build none (mixedReading "a") = .ok b ∧
        s.kind = .object ⟨[("a", a)], ["b", "a"], []⟩ ∧ s.conditions = [c] ∧
        c.rule = .guarded (.equal (.bool true)) (some (.join t)) none ∧
        t.kind = .object ⟨[("b", b)], ["a", "b"], []⟩ ∧ t.conditions = [] ∧
        c.rule.selected? (c.values none (some (.obj [("f", .bool true)]))) = some (.join t) ∧
        Shape.sorted [("a", a), ("b", b)] [] = .error (.cyclicDependency "a") :=
    ⟨_, _, _, _, _, rfl, rfl, rfl, rfl, rfl, rfl, rfl, rfl, rfl, rfl⟩
  have htbranching : t.Everywhere Schema.Branching := by
    refine Schema.Branching.of_unconditional (by simp [htkind]) ⟨?_, by simp [htkind]⟩ htconditions
    intro shape hshape f hf
    cases htkind.symm.trans hshape
    cases List.mem_singleton.mp hf
    exact mixedReading_branching hb
  have hbranching : s.Everywhere Schema.Branching := by
    refine Schema.Branching.of_condition (by simp [hkind]) ⟨?_, by simp [hkind]⟩ hconditions hc
      htbranching
    intro shape hshape f hf
    cases hkind.symm.trans hshape
    cases List.mem_singleton.mp hf
    exact mixedReading_branching ha
  have hmerged : Schema.concatFields [("a", a)] [("b", b)] = .ok [("a", a), ("b", b)] := by
    have habsent : List.lookup "b" [("a", a)] = none := rfl
    rw [Schema.concatFields_cons, habsent]
    exact bind_eq_ok.mpr ⟨b, rfl, by simp [Dict.put, Schema.concatFields]⟩
  have hconcat : s.clearConditions.concat t = .error (.cyclicDependency "a") :=
    Schema.concat_of_unsorted hkind htkind hmerged hcyclic
  have hclash : Evaluation.Clashes initial
      ⟨s, some (.obj []), { CallOptions.none with context := some (.obj [("f", .bool true)]) }⟩
      (.cyclicDependency "a") :=
    ⟨[], c, [], s.clearConditions, t, hconditions, rfl, hselected, hconcat⟩
  obtain ⟨hcast, -, hcalls⟩ := clashes_come_from_branches .initial
    (.built Schema.Obtained.stored_initial hs) hbranching (some (.obj []))
    { CallOptions.none with context := some (.obj [("f", .bool true)]) } (.cycle "a")
  obtain ⟨node, hcasts, hnode⟩ := hcast (hcalls hclash).1
  exact ⟨s, node, hs, (hcalls hclash).1, hcasts, hnode⟩

/-- A text with a branch that makes a number of it. -/
def numberWhereFlagged : Recipe :=
  .make .string [.when [Reference.ofKey "flag"] (.guarded (.equal (.str "on"))
    (some (.join (.plain .number))) none)]

/-- A branch of another kind is taken without a failure, and fails the calls that
    select it. -/
theorem number_branch_fails_calls :
    ∃ s, initial.build none numberWhereFlagged = .ok s ∧ s.Everywhere Schema.Branching ∧
      initial.cast s (some (.str "abc"))
          { CallOptions.none with parent := some (.obj [("flag", .str "on")]) } =
        .error (.kindMismatch .string .number) ∧
      initial.validate s (some (.str "abc"))
          { CallOptions.none with parent := some (.obj [("flag", .str "on")]) } =
        .error (.kindMismatch .string .number) := by
  obtain ⟨s, t, c, hs, hkind, hconditions, hc, htkind, htconditions, hselected⟩ :
      ∃ s t c, initial.build none numberWhereFlagged = .ok s ∧ s.kind = .string ∧
        s.conditions = [c] ∧ c.rule = .guarded (.equal (.str "on")) (some (.join t)) none ∧
        t.kind = .number ∧ t.conditions = [] ∧
        c.rule.selected? (c.values (some (.obj [("flag", .str "on")])) none) = some (.join t) :=
    ⟨_, _, _, rfl, rfl, rfl, rfl, rfl, rfl, rfl⟩
  have ht : t.Everywhere Schema.Branching :=
    Schema.Branching.of_unconditional (by simp [htkind]) ⟨by simp [htkind], by simp [htkind]⟩ htconditions
  have hbranching : s.Everywhere Schema.Branching :=
    Schema.Branching.of_condition (by simp [hkind]) ⟨by simp [hkind], by simp [hkind]⟩
      hconditions hc ht
  have hconcat : s.clearConditions.concat t = .error (.kindMismatch .string .number) := by
    have htag : s.clearConditions.tag = .string := congrArg Kind.tag hkind
    have httag : t.tag = .number := congrArg Kind.tag htkind
    rw [← htag, ← httag]
    exact Schema.concat_of_incompatible (by rw [htag, httag]; rfl)
  have hmade : s.WellMade .all :=
    (Schema.Obtained.built Schema.Obtained.stored_initial hs).wellMade
  have hclash : Evaluation.Clashes initial
      ⟨s, some (.str "abc"), { CallOptions.none with parent := some (.obj [("flag", .str "on")]) }⟩
      (.kindMismatch .string .number) :=
    ⟨[], c, [], s.clearConditions, t, hconditions, rfl, hselected, hconcat⟩
  obtain ⟨hcast, hvalidate, -⟩ :=
    calls_of_clash Reachable.initial.equipped hmade hbranching.here hclash
  exact ⟨s, hs, hbranching, hcast, hvalidate⟩

end Workshop

end Conform
