/-
  Conform.Proofs.Validation.Locating

  Where the leaves of a report lead. A leaf is reported under the path of the node that
  it is from, with the value of the node. Reading this path back, and following it
  through the value that the call has checked, ends at the value of the leaf.
-/

import Conform.Proofs.Path.Modes
import Conform.Proofs.Validation.Places
import Conform.Proofs.Validation.ViolationTrees

namespace Conform

-- ============================================================================
-- Reports in place
-- ============================================================================

/-- Whether all leaves of a violation carry the path and the value of a subject. -/
def Violation.KeepsTo (v : Violation) (subject : Subject) : Prop :=
  ∀ leaf ∈ v.leaves, leaf.path = subject.path ∧ leaf.value = subject.value

/-- What a test makes of its message keeps to its subject, unless the path is overridden. -/
theorem TestContext.keepsTo_violation (ctx : TestContext) {overrides : Overrides}
    (h : overrides.path = none) : (ctx.violation overrides).KeepsTo ctx.subject := by
  intro leaf hleaf
  rw [(ctx.isLeaf_violation overrides).leaves_eq, List.mem_singleton] at hleaf
  subst hleaf
  refine ⟨?_, rfl⟩
  show (overrides.path <|> ctx.subject.path) = ctx.subject.path
  rw [h]
  rfl

theorem Check.keepsTo_of_judge {c : Check} {ctx : TestContext} {v : Violation}
    (h : c.judge ctx = .error v) : v.KeepsTo ctx.subject := by
  unfold judge at h
  split at h
  · exact absurd h (by simp)
  · split at h
    · cases h
      exact ctx.keepsTo_violation rfl
    · cases h
      exact ctx.keepsTo_violation rfl
    · cases h
      exact ctx.keepsTo_violation rfl
    · exact absurd h (by simp)

/-- What the built-in tests report keeps to their subject. -/
theorem Predicate.BuiltIn.keepsTo {p : Predicate} (hp : p.BuiltIn) {ctx : TestContext}
    {v : Violation} (h : p.judge ctx = .error v) : v.KeepsTo ctx.subject := by
  cases hp with
  | check c => exact Check.keepsTo_of_judge h
  | matching mark regex excludeEmpty => exact absurd h (Outcome.ofBool_ne_error _ v)
  | noUnknown mark refuse => exact absurd h (Outcome.ofBool_ne_error _ v)

namespace Node

variable {C : RecipeClass} {w : Workshop} {n m : Node} {p : Part} {key : PartKey}
  {path : List PartKey}

/-- Whether the tests of a node, where they report violations of their own, keep to their
    subject. -/
def ReportsInPlace (n : Node) : Prop :=
  ∀ x ∈ n.schema.traits.tests, ¬ x.predicate.BuiltIn → ∀ v, x.outcome n.subject = .error v →
    v.KeepsTo n.subject

/-- The own violations of a node carry its path and its value. -/
theorem keepsTo_of_mem_ownViolations (hn : n.schema.Regular C) (h : n.ReportsInPlace)
    {v : Violation} (hv : v ∈ n.ownViolations) : v.KeepsTo n.subject := by
  obtain ⟨x, hx, hviolation⟩ := mem_ownViolations hv
  have hreports : ∀ u, x.outcome n.subject = .error u → u.KeepsTo n.subject := by
    intro u hu
    by_cases hbuiltIn : x.predicate.BuiltIn
    · exact hbuiltIn.keepsTo hu
    · rcases List.mem_append.mp hx with hpre | htest
      · obtain ⟨c, hc⟩ := check_of_prerequisite hn hpre
        exact absurd (hc ▸ .check c) hbuiltIn
      · split at htest
        · exact h x htest hbuiltIn u hu
        · exact absurd htest (by simp)
  rw [Test.violation?] at hviolation
  split at hviolation
  · exact absurd hviolation (by simp)
  · cases hviolation
    exact TestContext.keepsTo_violation _ rfl
  · next u hu =>
      cases hviolation
      exact hreports v hu
  · exact absurd hviolation (by simp)

-- ============================================================================
-- Following access paths
-- ============================================================================

/-- A node hands down what the step to the part gives. -/
theorem Hands.step (h : n.Hands key p) :
    ∃ v, n.value = some v ∧ v.isNull = false ∧ key.segment.step v = p.value := by
  cases h with
  | field _ _ hvalue _ => exact ⟨_, hvalue, rfl, rfl⟩
  | item _ _ hvalue hitem =>
      exact ⟨_, hvalue, rfl, List.mem_zipIdx_iff_getElem?.mp hitem⟩

/-- The steps of an access path lead to the value of the node that stands there. -/
theorem Reaches.follow (h : n.Reaches w path m) {v : Value} (hv : n.value = some v) :
    Path.follow true v (path.map PartKey.segment) = .found m.value := by
  induction h generalizing v with
  | here =>
      rw [hv]
      rfl
  | @part n m key p t path hkey _ hbelow ih =>
      obtain ⟨u, hu, -, hstep⟩ := hkey.step
      cases hv.symm.trans hu
      cases hbelow with
      | here =>
          rw [List.map_cons, List.map_nil, Path.follow, hstep]
          rfl
      | @part _ _ next q u rest hnext ht hrest =>
          obtain ⟨inner, hinner, hnull, -⟩ := hnext.step
          have hvalue : p.value = some inner := hinner
          rw [List.map_cons, Path.follow_cons_of_step (hstep.trans hvalue) hnull]
          exact ih hinner

/-- Whether the paths of the parts of a node can be read back: the fields have plain names,
    and there are no more items than positions. -/
structure Legible (n : Node) : Prop where
  names : ∀ shape, n.schema.kind = .object shape → ∀ f ∈ shape.fields, Path.PlainKey f.1
  positions : ∀ items, n.value = some (.arr items) → items.length ≤ greatestIndex + 1

theorem Hands.shown (h : n.Hands key p) (hn : n.Legible) : key.Shown := by
  cases h with
  | field _ hkind _ hf => exact hn.names _ hkind _ hf
  | item _ _ hvalue hitem =>
      have hlt := (List.getElem?_eq_some_iff.mp (List.mem_zipIdx_iff_getElem?.mp hitem)).1
      have hle := hn.positions _ hvalue
      show _ ≤ greatestIndex
      omega

theorem Reaches.shown (h : n.Reaches w path m) (hn : ∀ l, n.Visits w l → l.Legible) :
    ∀ key ∈ path, key.Shown := by
  induction h with
  | here => simp
  | part hkey ht _ ih =>
      refine List.forall_mem_cons.mpr ⟨hkey.shown (hn _ .here), ih fun l hl => ?_⟩
      exact hn l (.part (mem_parts_iff.mpr ⟨_, hkey⟩) ht hl)

end Node

namespace PartKey

theorem exists_pathBelow (base : String) (path : List PartKey) :
    ∃ text, pathBelow (some base) path = some text := by
  induction path generalizing base with
  | nil => exact ⟨base, rfl⟩
  | cons key rest ih =>
      cases key with
      | field name => exact ih _
      | item position => exact ih _

/-- Only the whole value is reported without a path. -/
theorem pathBelow_cons (key : PartKey) (rest : List PartKey) :
    pathBelow none (key :: rest) = some (pathText (key :: rest)) := by
  obtain ⟨text, htext⟩ : ∃ text, pathBelow none (key :: rest) = some text := by
    cases key with
    | field name => exact exists_pathBelow _ rest
    | item position => exact exists_pathBelow _ rest
  rw [pathText, htext]
  rfl

end PartKey

-- ============================================================================
-- Calls
-- ============================================================================

/-- Whether a leaf leads to its value: its path, followed safely through the whole value,
    ends there. A leaf without a path has the whole value. -/
structure Violation.LeadsFrom (leaf : Violation) (whole : Option Value) : Prop where
  path : ∀ text, leaf.path = some text →
    ∃ v, whole = some v ∧ Path.follow true v (Path.parse text) = .found leaf.value
  root : leaf.path = none → leaf.value = whole

/-- A leaf with the path and the value of a node leads to this value. -/
theorem Node.Reaches.leadsFrom {w : Workshop} {n m : Node} {path : List PartKey}
    (h : n.Reaches w path m) (hn : ∀ l, n.Visits w l → l.Legible) (hroot : n.options.path = none)
    {leaf : Violation} (hpath : leaf.path = m.options.path) (hvalue : leaf.value = m.value) :
    leaf.LeadsFrom n.value := by
  rw [h.options_path, hroot] at hpath
  cases path with
  | nil =>
      cases h
      exact ⟨fun text htext => absurd (hpath.symm.trans htext) (by simp [PartKey.pathBelow]),
        fun _ => hvalue⟩
  | cons key rest =>
      rw [PartKey.pathBelow_cons] at hpath
      refine ⟨fun text htext => ?_, fun hnone => absurd (hpath.symm.trans hnone) (by simp)⟩
      cases hpath.symm.trans htext
      obtain ⟨v, hv⟩ : ∃ v, n.value = some v := by
        cases h with
        | part hkey _ _ => exact hkey.step.imp fun _ h => h.1
      refine ⟨v, hv, ?_⟩
      rw [PartKey.parse_pathText (h.shown hn), h.follow hv, hvalue]

namespace Workshop

variable {C : RecipeClass} {w : Workshop} {s : Schema} {value : Option Value}
  {options : CallOptions} {e : Violation}

/-- A call that collects all violations and ends with one of them has come to a node, and
    ends with the report of the node, if no function reports a violation in place of a
    schema. -/
theorem exists_report (hw : w.Equipped C) (hs : s.WellMade C)
    (habort : options.abortEarly = some false)
    (hsilent : ∀ a v, w.Resolves s value options a → a.resolve w ≠ .error (.violation v))
    (h : w.validateSync s value options = .error (.violation e)) :
    ∃ n, w.enter (root s value options) = .ok n ∧ n.violations w ≠ [] ∧
      e = Violation.collect (n.violations w) n.value n.options.path := by
  have hno : ¬ (w.validateSync s value options).IsMistake := by
    rw [h]
    exact Result.not_isMistake_violation e
  cases henter : w.enter (root s value options) with
  | error f =>
      cases (validateSync_of_enter_error hw hs henter).symm.trans h
      obtain ⟨a, ha, hresolve⟩ := exists_entryResolves_of_enter_error (by simp) (by simp) henter
      exact absurd hresolve (hsilent a e (.entry ha))
  | ok n =>
      have hresolves : ∀ m, n.Visits w m → ∀ p ∈ m.parts,
          ∃ t, w.resolve p.schema p.value p.options = .ok t := by
        intro m hm p hp
        cases hresolve : w.resolve p.schema p.value p.options with
        | ok t => exact ⟨t, rfl⟩
        | error f =>
            refine absurd ⟨f, hresolve, ?_⟩ ((wait_of_call hw hs habort hno henter hm).2 p hp)
            rintro v rfl
            exact hsilent p.evaluation v (.part henter hm hp) hresolve
      have hreport := validateSync_eq_report hw hs habort henter
        (fun m hm => (wait_of_call hw hs habort hno henter hm).1) hresolves
      rw [h, Node.report] at hreport
      split at hreport
      · exact absurd hreport (by simp)
      · next hsome =>
          cases hreport
          exact ⟨n, rfl, hsome, rfl⟩

/-- Paths of reports address the values that fail. Where all violations are collected, the
    path of a leaf, read and followed safely through the value that the call has checked,
    ends at the value of the leaf; a leaf without a path has the whole value. Fields need
    names that paths show as they are, tests may report no other path or value than those
    they are handed, and lazy schemas and conditions leave it to them to report violations. -/
theorem leaves_lead_to_values (hw : w.Reachable .all) (hs : s.Obtained)
    (habort : options.abortEarly = some false) (hroot : options.path = none)
    (hlegible : ∀ n m, w.enter (root s value options) = .ok n → n.Visits w m → m.Legible)
    (htests : ∀ n m, w.enter (root s value options) = .ok n → n.Visits w m → m.ReportsInPlace)
    (hsilent : ∀ a v, w.Resolves s value options a → a.resolve w ≠ .error (.violation v))
    (h : w.validateSync s value options = .error (.violation e)) :
    ∃ t r, w.resolve s value options = .ok t ∧
      w.checkedValue t (Mode.of options t.traits.options).strict value options = .ok r ∧
      ∀ leaf ∈ e.leaves, leaf.LeadsFrom r := by
  obtain ⟨n, hn, hsome, rfl⟩ := exists_report hw.equipped hs.wellMade habort hsilent h
  have hmade := enter_wellMade hw.equipped hs.wellMade hn
  obtain ⟨hresolve, hchecked⟩ := enter_eq_ok hn
  rw [Node.mode, enter_options hn] at hchecked
  refine ⟨n.schema, n.value, hresolve, hchecked, fun leaf hleaf => ?_⟩
  rw [Violation.leaves_collect hsome] at hleaf
  obtain ⟨path, m, hm, v, hv, hown⟩ := Node.mem_leaves_iff.mp hleaf
  have hvisits : n.Visits w m := Node.visits_iff_reaches.mpr ⟨path, hm⟩
  have hkeeps := Node.keepsTo_of_mem_ownViolations
    (visits_wellMade hw.equipped hvisits hmade).here (htests n m hn hvisits) hv
  obtain ⟨hpath, hvalue⟩ := hkeeps leaf hown
  exact hm.leadsFrom (fun l hl => hlegible n l hn hl) (enter_options hn ▸ hroot) hpath hvalue

/-- Whether a call reports a leaf that does not lead to its value. -/
def Misleads (w : Workshop) (s : Schema) (value : Option Value) (options : CallOptions) : Prop :=
  ∃ n e, w.enter (root s value options) = .ok n ∧
    w.validateSync s value options = .error (.violation e) ∧
    ∃ leaf ∈ e.leaves, ¬ leaf.LeadsFrom n.value

/-- A leaf without a path misleads, if it has not the whole value. -/
theorem misleads_of_leaf {n : Node} {leaf : Violation}
    (hn : w.enter (root s value options) = .ok n)
    (h : w.validateSync s value options =
      .error (.violation (Violation.collect [leaf] n.value n.options.path)))
    (hleaf : leaf.IsLeaf) (hpath : leaf.path = none) (hvalue : leaf.value ≠ n.value) :
    w.Misleads s value options :=
  ⟨n, _, hn, h, leaf, by simp [Violation.leaves_collect, hleaf.leaves_eq],
    fun hleads => hvalue (hleads.root hpath)⟩

/-- A test that reports the path it is handed, but no value. -/
def silent : Recipe :=
  .make .mixed [.test (.draft (refusal fun ctx => .leaf "refused" none ctx.subject.path none))]

theorem silent_misleads :
    ∃ s, initial.build none silent = .ok s ∧
      (∀ x ∈ s.traits.tests, ∀ subject v, x.outcome subject = .error v → v.path = subject.path) ∧
      initial.Misleads s (some (.str "x")) collecting := by
  obtain ⟨s, n, x, y, v, hs, henter, htests, ⟨mark, hx⟩, hparts, hinvoked, hpass, hfails, hown,
      hleaf, hpath, hvalue⟩ :
      ∃ s n x y v, initial.build none silent = .ok s ∧
        initial.enter (root s (some (.str "x")) collecting) = .ok n ∧ s.traits.tests = [x] ∧
        (∃ mark, x.predicate = .custom mark
          (refusal fun ctx => .leaf "refused" none ctx.subject.path none).judge) ∧
        n.parts = [] ∧ n.invoked = [y, x] ∧ y.outcome n.subject = .pass ∧
        x.outcome n.subject = .error v ∧ n.ownViolations = [v] ∧ v.IsLeaf ∧
        v.path = none ∧ v.value ≠ n.value :=
    ⟨_, _, _, _, _, rfl, rfl, rfl, ⟨_, rfl⟩, rfl, rfl, rfl, rfl, rfl, ⟨rfl, rfl⟩, rfl, nofun⟩
  have hmade : s.Made .all := ⟨initial, none, _, .initial, trivial, hs⟩
  have hviolations : n.violations initial = [v] := by
    rw [Node.violations_eq, hparts, hown]
    rfl
  have hreport := validateSync_eq_report Reachable.initial.equipped hmade.wellMade rfl henter
    (fun m hm z hz => by
      cases hm.eq_of_parts hparts
      rw [hinvoked] at hz
      rcases List.mem_cons.mp hz with rfl | hlast
      · rw [hpass]
        rfl
      · rw [List.mem_singleton.mp hlast, hfails]
        rfl)
    (fun m hm p hp => by
      cases hm.eq_of_parts hparts
      exact absurd (hparts ▸ hp) (by simp))
  rw [Node.report, hviolations, if_neg (by simp)] at hreport
  refine ⟨s, hs, fun z hz subject u hu => ?_, misleads_of_leaf henter hreport hleaf hpath hvalue⟩
  rw [htests, List.mem_singleton] at hz
  subst hz
  rw [Test.outcome, hx] at hu
  cases hu
  rfl

/-- A list of lazy schemas that report a violation of their own. -/
def evasive : Recipe :=
  .make .array [.element
    (.plain (.lazy fun _ _ => .error (.violation (.leaf "refused" none none none))))]

theorem evasive_misleads :
    ∃ s, initial.build none evasive = .ok s ∧ s.traits.tests = [] ∧
      initial.Misleads s (some (.arr [.int 1])) strictly := by
  obtain ⟨s, n, element, y, v, hs, henter, hstests, htests, hkind, hmode, hitems, hpre, hpass,
      hfound, hleaf, hpath, hvalue⟩ :
      ∃ s n element y v, initial.build none evasive = .ok s ∧
        initial.enter (root s (some (.arr [.int 1])) strictly) = .ok n ∧
        s.traits.tests = [] ∧ n.schema.traits.tests = [] ∧
        n.schema.kind = .array (.of element) ∧
        (n.mode.recursive = true ∧ n.mode.abortEarly = false) ∧
        n.value = some (.arr [.int 1]) ∧ n.schema.traits.prerequisites = [y] ∧
        y.outcome n.subject = .pass ∧
        Policy.violations (n.parts.map fun p =>
          (p.job (initial.validateWithin true (Value.heightOf n.value))).discard) = .ok [v] ∧
        v.IsLeaf ∧ v.path = none ∧ v.value ≠ n.value :=
    ⟨_, _, _, _, _, rfl, rfl, rfl, rfl, rfl, ⟨rfl, rfl⟩, rfl, rfl, rfl, rfl, ⟨rfl, rfl⟩, rfl, nofun⟩
  have hmade : s.Made .all := ⟨initial, none, _, .initial, trivial, hs⟩
  exact ⟨s, hs, hstests, misleads_of_leaf henter
    (validateSync_items Reachable.initial.equipped hmade.wellMade henter hmode hkind hitems hpre
      hpass htests (by simp) hfound) hleaf hpath hvalue⟩

/-- Leaves that the context of a test has not made need not lead to their value: neither one
    of a test that keeps to the path it is handed, nor one of a lazy schema. -/
theorem own_leaves_lead_nowhere :
    (∃ s, initial.build none silent = .ok s ∧
      (∀ x ∈ s.traits.tests, ∀ subject v, x.outcome subject = .error v → v.path = subject.path) ∧
      initial.Misleads s (some (.str "x")) collecting) ∧
    ∃ s, initial.build none evasive = .ok s ∧ s.traits.tests = [] ∧
      initial.Misleads s (some (.arr [.int 1])) strictly :=
  ⟨silent_misleads, evasive_misleads⟩

/-- A record with a list of tags. -/
def tagged : Recipe :=
  .make .object [.shape [("tags", .make .array [.element (.make .string [])])] []]

/-- A record with a tag that is no text. -/
def someTags : Value := .obj [("tags", .arr [.str "a", .int 1])]

/-- The path of the tag that is no text leads to it. -/
theorem leaves_lead_to_values_tags :
    ∃ s e leaf, initial.build none tagged = .ok s ∧
      initial.validateSync s (some someTags) strictly = .error (.violation e) ∧
      leaf ∈ e.leaves ∧ leaf.path = some "tags[1]" ∧ leaf.value = some (.int 1) ∧
      Path.follow true someTags (Path.parse "tags[1]") = .found leaf.value := by
  obtain ⟨s, list, text, n, a, b, c, v, hs, hn, hkind, hlist, htext, ⟨hns, has, hbs, hcs⟩,
      ⟨hnparts, haparts, hbparts, hcparts⟩, ⟨hnvalue, havalue, hbvalue, hcvalue⟩,
      ⟨hobject, harray, hstring⟩, ⟨hstests, hltests, httests⟩, hown, hleaf, hpath, hvalue⟩ :
      ∃ s list text n a b c v, initial.build none tagged = .ok s ∧
        initial.enter (root s (some someTags) strictly) = .ok n ∧
        s.kind = .object ⟨[("tags", list)], ["tags"], []⟩ ∧ list.kind = .array (.of text) ∧
        text.kind = .string ∧
        (n.schema = s ∧ a.schema = list ∧ b.schema = text ∧ c.schema = text) ∧
        (n.parts = [a] ∧ (a.node list).parts = [b, c] ∧ (b.node text).parts = [] ∧
          (c.node text).parts = []) ∧
        ((∀ items, n.value ≠ some (.arr items)) ∧ a.value = some (.arr [.str "a", .int 1]) ∧
          (∀ items, b.value ≠ some (.arr items)) ∧ ∀ items, c.value ≠ some (.arr items)) ∧
        (s.Placeless ∧ list.Placeless ∧ text.Placeless) ∧
        (s.traits.tests = [] ∧ list.traits.tests = [] ∧ text.traits.tests = []) ∧
        (c.node text).ownViolations = [v] ∧ v.leaves = [v] ∧ v.path = some "tags[1]" ∧
        v.value = some (.int 1) :=
    ⟨_, _, _, _, _, _, _, _, rfl, rfl, rfl, rfl, rfl, ⟨rfl, rfl, rfl, rfl⟩, ⟨rfl, rfl, rfl, rfl⟩,
      ⟨fun _ h => (nomatch h), rfl, fun _ h => (nomatch h), fun _ h => (nomatch h)⟩,
      ⟨⟨fun _ h => (nomatch h), rfl, rfl, rfl, fun _ h => (nomatch h), fun _ h => (nomatch h),
          rfl, rfl⟩,
        ⟨fun _ h => (nomatch h), rfl, rfl, rfl, fun _ h => (nomatch h), fun _ h => (nomatch h),
          rfl, rfl⟩,
        ⟨fun _ h => (nomatch h), rfl, rfl, rfl, fun _ h => (nomatch h), fun _ h => (nomatch h),
          rfl, rfl⟩⟩,
      ⟨rfl, rfl, rfl⟩, rfl, rfl, rfl, rfl⟩
  have hplaceless : s.Everywhere Schema.Placeless :=
    .of_fields hobject hobject.conditions hkind (List.forall_mem_singleton.mpr
      (.of_element harray harray.conditions hlist (.of_leaf hstring hstring.conditions
        (by simp [htext]) (by simp [htext]))))
  have hobtained : s.Obtained := .built Schema.Obtained.stored_initial hs
  have hmade := enter_wellMade Reachable.initial.equipped hobtained.wellMade hn
  have hnode : n.schema.Everywhere Schema.Placeless := hns ▸ hplaceless
  have ha : initial.resolve a.schema a.value a.options = .ok list := by
    rw [has]
    exact harray.resolve _ _ _
  have hb : initial.resolve b.schema b.value b.options = .ok text := by
    rw [hbs]
    exact hstring.resolve _ _ _
  have hc : initial.resolve c.schema c.value c.options = .ok text := by
    rw [hcs]
    exact hstring.resolve _ _ _
  have hnodes : ∀ m, n.Visits initial m → m.Legible ∧ m.schema.traits.tests = [] := by
    have htag : ∀ {p : Part}, (p.node text).parts = [] → (∀ items, p.value ≠ some (.arr items)) →
        ∀ m, (p.node text).Visits initial m → m.Legible ∧ m.schema.traits.tests = [] :=
      fun hnone hvalue => Node.visits_of_parts_eq_nil hnone
        ⟨⟨fun shape hshape => absurd (htext.symm.trans hshape) (by simp),
          fun items hitems => absurd hitems (hvalue items)⟩, httests⟩
    intro m hm
    refine hm.of_parts ⟨⟨fun shape hshape => ?_, fun items hitems => ?_⟩, by rw [hns, hstests]⟩ ?_
    · cases (hkind.symm.trans (hns ▸ hshape))
      exact List.forall_mem_singleton.mpr (by decide : Path.PlainKey "tags")
    · exact absurd hitems (hnvalue items)
    · rw [hnparts]
      refine List.forall_mem_singleton.mpr ⟨list, ha, fun m hm => ?_⟩
      refine hm.of_parts ⟨⟨fun shape hshape => absurd (hlist.symm.trans hshape) (by simp),
        fun items hitems => ?_⟩, hltests⟩ ?_
      · cases (havalue.symm.trans hitems)
        decide
      · simp only [haparts, List.forall_mem_cons]
        exact ⟨⟨text, hb, htag hbparts hbvalue⟩, ⟨text, hc, htag hcparts hcvalue⟩, by simp⟩
  have hsilent : ∀ o u, initial.Resolves s (some someTags) strictly o →
      o.resolve initial ≠ .error (.violation u) := by
    intro o u ho hfails
    cases ho with
    | entry hentry =>
        exact absurd (hn.symm.trans (enter_of_entryResolves hentry hfails)) (by simp)
    | @part n' m p hn' hm hp =>
        cases hn.symm.trans hn'
        have hpart := (Node.everywhere_part (hm.placeless hnode) hp).here
        exact absurd ((hpart.resolve _ _ _).symm.trans hfails) (by simp)
  have hreport : initial.validateSync s (some someTags) strictly = n.report initial := by
    rw [validateSync_eq Reachable.initial.equipped hobtained.wellMade, hn]
    exact Node.run_eq_report Reachable.initial.equipped hmade hnode (enter_options hn ▸ rfl)
  have hmem : v ∈ n.violations initial :=
    Node.mem_violations.mpr ⟨c.node text, .part (by simp [hnparts]) ha
      (.part (by simp [haparts]) hc .here), by simp [hown]⟩
  have hsome : n.violations initial ≠ [] := List.ne_nil_of_mem hmem
  rw [Node.report, if_neg hsome] at hreport
  have hv : v ∈ (Violation.collect (n.violations initial) n.value n.options.path).leaves := by
    rw [Violation.leaves_collect hsome]
    exact List.mem_flatMap.mpr ⟨v, hmem, by simp [hleaf]⟩
  obtain ⟨t, r, -, hr, hleads⟩ := leaves_lead_to_values .initial hobtained rfl rfl
    (fun n' m hn' hm => by
      cases hn.symm.trans hn'
      exact (hnodes m hm).1)
    (fun n' m hn' hm x hx => by
      cases hn.symm.trans hn'
      exact absurd ((hnodes m hm).2 ▸ hx) (by simp)) hsilent hreport
  have hchecked : some someTags = r := Except.ok.inj hr
  obtain ⟨whole, hwhole, hfollow⟩ := (hleads v hv).path _ hpath
  cases hchecked.trans hwhole
  exact ⟨s, _, v, hs, hreport, hv, hpath, hvalue, hfollow⟩

end Workshop

end Conform
