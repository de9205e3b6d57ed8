/-
  Conform.Proofs.Schema.Keeping

  Properties that every way of making a schema keeps. A property of nodes that bare
  schemas have, and that edits, new parts, conditions and concatenations keep, holds at
  all nodes of all schemas that recipes make and that resolution leaves: the induction
  over recipes, methods and conditions is carried out here once, whatever the property
  is. Recipes are carried out at places, which mark the predicates that are made there;
  a property may rest on what is known of the places.
-/

import Conform.Schema.Resolve
import Conform.Proofs.Schema.Regular

namespace Conform

-- ============================================================================
-- Refinements
-- ============================================================================

/-- Whether nothing stands inside a kind. -/
structure Kind.Bare (kind : Kind Schema) : Prop where
  shape : ∀ shape, kind = .object shape → shape = .empty
  element : ∀ t, kind ≠ .array (.of t)

namespace Schema

variable {C : RecipeClass} {N : Schema → Prop} {s t : Schema}

theorem shape_eq_ok {fields : List (String × Schema)} {excluded : List (String × String)}
    (h : s.shape fields excluded = .ok t) :
    ∃ old new, s.kind = .object old ∧
      Shape.sorted (fields.foldl (fun d field => Dict.put d field.1 field.2) old.fields)
        (old.excluded ++ excluded) = .ok new ∧
      t = s.setKind (.object new) := by
  rw [Schema.shape] at h
  split at h
  · next old hkind =>
      obtain ⟨new, hnew, h⟩ := bind_eq_ok.mp h
      cases h
      exact ⟨old, new, hkind, hnew, rfl⟩
  · exact absurd h (by simp [unsupported])

theorem of_eq_ok {element : Schema} (h : s.of element = .ok t) :
    t = s.setKind (.array (.of element)) := by
  obtain ⟨-, h⟩ := requireKind_bind h
  exact (Except.ok.inj h).symm

theorem withoutElement_eq_ok (h : s.withoutElement = .ok t) :
    t = s.setKind (.array .disabled) := by
  obtain ⟨-, h⟩ := requireKind_bind h
  exact (Except.ok.inj h).symm

theorem when_eq_ok {refs : List Reference} {rule : Rule Schema Recipe Step}
    (h : s.when refs rule = .ok t) :
    t.kind = s.kind ∧ t.conditions = s.conditions ++ [⟨refs, rule⟩] ∧
      t.traits = { s.traits with deps := s.traits.deps ++ refs.filter fun r => !r.isContext } := by
  rw [Schema.when] at h
  split at h
  · exact absurd h (by simp)
  · cases h
    exact ⟨rfl, rfl, rfl⟩

/-! ## Traits behind a change of the kind -/

theorem traits_of_shape {fields : List (String × Schema)} {excluded : List (String × String)}
    (h : s.shape fields excluded = .ok t) : t.traits = s.traits := by
  obtain ⟨old, new, -, -, rfl⟩ := shape_eq_ok h
  rfl

theorem traits_of_of {element : Schema} (h : s.of element = .ok t) : t.traits = s.traits := by
  cases of_eq_ok h
  rfl

theorem traits_of_withoutElement (h : s.withoutElement = .ok t) : t.traits = s.traits := by
  cases withoutElement_eq_ok h
  rfl

namespace Everywhere

theorem fresh {locale : Locale} {kind : Kind Schema} (hbare : kind.Bare)
    (ht : N (Schema.fresh locale kind)) : (Schema.fresh locale kind).Everywhere N := by
  refine .of_children ht ⟨?_, ?_⟩ (by simp [Schema.fresh])
  · intro shape heq f hf
    cases hbare.shape shape heq
    exact absurd hf (by simp [Shape.empty])
  · exact fun t heq => absurd heq (hbare.element t)

theorem edited (h : s.Everywhere N) (he : Edited C s t) (ht : N t) : t.Everywhere N := by
  refine h.of_parts ht ?_
  obtain ⟨hkind, hconditions⟩ := he.kind_eq
  intro u hu
  cases hu with
  | field heq hf => exact .field (hkind ▸ heq) hf
  | element heq => exact .element (hkind ▸ heq)
  | branch hc hu => exact .branch (hconditions ▸ hc) hu

/-- A schema of another kind, by the parts of the kind. -/
theorem setKind (h : s.Everywhere N) {kind : Kind Schema}
    (hparts : KindHolds (Everywhere N) kind) (ht : N (s.setKind kind)) :
    (s.setKind kind).Everywhere N :=
  .of_children ht hparts fun _ hc _ hu => h.nested (.branch (s := s) hc hu)

theorem shape (h : s.Everywhere N) {fields : List (String × Schema)}
    {excluded : List (String × String)} (hfields : ∀ f ∈ fields, f.2.Everywhere N)
    (heq : s.shape fields excluded = .ok t) (ht : N t) : t.Everywhere N := by
  obtain ⟨old, new, hkind, hnew, rfl⟩ := shape_eq_ok heq
  refine h.setKind ⟨?_, by simp⟩ ht
  rintro shape heq f hf
  cases heq
  rw [(Shape.fields_of_sorted hnew).1] at hf
  rcases Dict.mem_foldl_put hf with hold | ⟨new, hmem, heq⟩
  · exact h.field hkind hold
  · exact heq ▸ hfields new hmem

theorem of {element : Schema} (h : s.Everywhere N) (helement : element.Everywhere N)
    (heq : s.of element = .ok t) (ht : N t) : t.Everywhere N := by
  cases of_eq_ok heq
  refine h.setKind ⟨by simp, ?_⟩ ht
  rintro u heq
  cases heq
  exact helement

theorem withoutElement (h : s.Everywhere N) (heq : s.withoutElement = .ok t) (ht : N t) :
    t.Everywhere N := by
  cases withoutElement_eq_ok heq
  exact h.setKind ⟨by simp, by simp⟩ ht

theorem when (h : s.Everywhere N) {refs : List Reference} {rule : Rule Schema Recipe Step}
    (hjoined : ∀ u ∈ rule.joined, u.Everywhere N) (heq : s.when refs rule = .ok t) (ht : N t) :
    t.Everywhere N := by
  obtain ⟨hkind, hconditions, -⟩ := when_eq_ok heq
  have hparts : KindHolds (Everywhere N) t.kind := hkind ▸ .of_everywhere h
  refine .of_children ht hparts ?_
  intro c hc u hu
  rw [hconditions] at hc
  rcases List.mem_append.mp hc with hold | hnew
  · exact h.nested (.branch hold hu)
  · cases List.mem_singleton.mp hnew
    exact hjoined u hu

end Everywhere

-- ============================================================================
-- Kept properties
-- ============================================================================

/-- Whether a property of nodes is kept by all ways of making schemas with recipes of a
    class, concatenation left out. The picks of lazy nodes and the rules of conditions
    belong to the class. -/
structure Refined (C : RecipeClass) (N : Schema → Prop) : Prop where
  fresh : ∀ {locale : Locale} {kind : Kind Schema}, kind.Bare →
    (∀ pick, kind = .lazy pick → C.pick pick) → N (Schema.fresh locale kind)
  edited : ∀ {s t : Schema}, N s → Edited C s t → N t
  shape : ∀ {s t : Schema} {fields : List (String × Schema)} {excluded : List (String × String)},
    s.Everywhere N → (∀ f ∈ fields, f.2.Everywhere N) → s.shape fields excluded = .ok t → N t
  of : ∀ {s t element : Schema}, s.Everywhere N → element.Everywhere N →
    s.of element = .ok t → N t
  withoutElement : ∀ {s t : Schema}, N s → s.withoutElement = .ok t → N t
  when : ∀ {s t : Schema} {refs : List Reference} {rule : Rule Schema Recipe Step}, N s →
    C.rule rule → (∀ u ∈ rule.joined, u.Everywhere N) → s.when refs rule = .ok t → N t
  clearConditions : ∀ {s : Schema}, N s → N s.clearConditions
  pick : ∀ {s : Schema} {pick : Pick}, N s → s.kind = .lazy pick → C.pick pick
  rule : ∀ {s : Schema} {c : Condition Schema}, N s → c ∈ s.conditions → C.rule c.rule

/-- Whether concatenation keeps the property too. -/
structure Kept (C : RecipeClass) (N : Schema → Prop) : Prop extends Refined C N where
  concat : ConcatKeeps N

/-- A property of the traits of nodes is kept if edits keep it and it does not read the
    dependencies. -/
theorem Refined.of_traits {P : Traits → Prop}
    (hfresh : ∀ locale kind, P (Schema.fresh locale kind).traits)
    (hedited : ∀ {s t : Schema}, P s.traits → Edited .all s t → P t.traits)
    (hdeps : ∀ {t : Traits} (deps : List Reference), P t → P { t with deps }) :
    Refined .all fun s => P s.traits where
  fresh _ _ := hfresh _ _
  edited := hedited
  shape hs _ h := traits_of_shape h ▸ hs.here
  of hs _ h := traits_of_of h ▸ hs.here
  withoutElement hs h := traits_of_withoutElement h ▸ hs
  when := by
    intro s t refs rule hs _ _ h
    obtain ⟨-, -, htraits⟩ := when_eq_ok h
    rw [htraits]
    exact hdeps _ hs
  clearConditions h := h
  pick _ _ := trivial
  rule _ _ := RecipeClass.rule_all _

end Schema

open Schema

-- ============================================================================
-- Recipes
-- ============================================================================

/-- Whether all that a workshop holds was made by recipes of a class, and its schemas
    have a property at all nodes. -/
structure Workshop.Supplied (C : RecipeClass) (N : Schema → Prop) (w : Workshop) : Prop where
  schemas : ∀ name s, Dict.get? w.schemas name = some s → s.Everywhere N
  tests : ∀ name x, Dict.get? w.tests name = some x → C.predicate x.predicate
  methods : ∀ kind name method view args, w.registry.method? kind name = some method →
    C.choice (method view args)

namespace Workshop

/-- Whether all that recipes of a class are carried out by keeps a property of nodes, at
    places with a property that the places of parts have too. -/
structure Keeping (w : Workshop) (C : RecipeClass) (M : Option Mark → Prop) (N : Schema → Prop) :
    Prop where
  part : ∀ {mark : Option Mark} (position : Nat), M mark → M (part mark position)
  methods : ∀ kind name method view args, w.registry.method? kind name = some method →
    C.choice (method view args)
  base : ∀ {base : Base} {s : Schema}, (∀ pick, base = .lazy pick → C.pick pick) →
    w.baseSchema base = .ok s → s.Everywhere N
  edit : ∀ {invoke : Invoke} {mark : Option Mark} {step : Step} {s t : Schema}, M mark →
    C.step step → step.isEdit = true → N s → takeStep w invoke mark s step = .ok t → N t
  shape : ∀ {s t : Schema} {fields : List (String × Schema)} {excluded : List (String × String)},
    s.Everywhere N → (∀ f ∈ fields, f.2.Everywhere N) → s.shape fields excluded = .ok t → N t
  of : ∀ {s t element : Schema}, s.Everywhere N → element.Everywhere N →
    s.of element = .ok t → N t
  withoutElement : ∀ {s t : Schema}, N s → s.withoutElement = .ok t → N t
  when : ∀ {s t : Schema} {refs : List Reference} {rule : Rule Schema Recipe Step}, N s →
    C.rule rule → (∀ u ∈ rule.joined, u.Everywhere N) → s.when refs rule = .ok t → N t
  concat : ConcatKeeps N

/-- Whether calls of methods at such places keep a property of all nodes. -/
def InvokeKeeps (M : Option Mark → Prop) (N : Schema → Prop) (invoke : Invoke) : Prop :=
  ∀ s name args mark t, M mark → s.Everywhere N → invoke s name args mark = .ok t →
    t.Everywhere N

variable {C : RecipeClass} {M : Option Mark → Prop} {N : Schema → Prop} {w : Workshop}
  {invoke : Invoke} {mark : Option Mark}

theorem baseSchema_keeps
    (hfresh : ∀ {kind : Kind Schema}, kind.Bare → (∀ pick, kind = .lazy pick → C.pick pick) →
      N (Schema.fresh w.locale kind))
    (hschemas : ∀ name s, Dict.get? w.schemas name = some s → s.Everywhere N) {base : Base}
    (hpick : ∀ pick, base = .lazy pick → C.pick pick) {s : Schema}
    (h : w.baseSchema base = .ok s) : s.Everywhere N := by
  have hfresh {kind : Kind Schema} (hbare : kind.Bare)
      (hkind : ∀ pick, kind = .lazy pick → C.pick pick) :
      (Schema.fresh w.locale kind).Everywhere N := .fresh hbare (hfresh hbare hkind)
  cases base <;> rw [baseSchema] at h
  case named name =>
    split at h
    · next found hfound =>
        cases h
        exact hschemas name _ hfound
    · exact absurd h (by simp)
  case lazy pick =>
    cases h
    refine hfresh ⟨by simp, by simp⟩ ?_
    rintro other heq
    cases heq
    exact hpick pick rfl
  case object =>
    cases h
    exact hfresh ⟨by simp, by simp⟩ (by simp)
  case mixed | string | number | boolean | array =>
    cases h
    exact hfresh ⟨by simp, by simp⟩ (by simp)

/-- What all ways of making schemas keep is kept at all places, if what is stored has it. -/
theorem Supplied.keeping (hw : w.Supplied C N) (hN : Kept C N) : w.Keeping C (fun _ => True) N where
  part _ _ := trivial
  methods := hw.methods
  base hpick h := baseSchema_keeps hN.fresh hw.schemas hpick h
  edit _ hstep hedit hs h := hN.edited hs (takeStep_edited hw.tests hstep hedit h)
  shape := hN.shape
  of := hN.of
  withoutElement := hN.withoutElement
  when := hN.when
  concat := hN.concat

mutual

theorem buildWith_keeps (hK : w.Keeping C M N) (hinvoke : InvokeKeeps M N invoke) :
    ∀ (r : Recipe) {mark : Option Mark} {s : Schema}, C.recipe r → M mark →
    buildWith w invoke mark r = .ok s → s.Everywhere N
  | .make base steps, mark, s, hr, hmark, h => by
      rw [buildWith] at h
      obtain ⟨start, hstart, h⟩ := bind_eq_ok.mp h
      have hpick : ∀ pick, base = .lazy pick → C.pick pick := by
        rintro pick rfl
        exact C.pick_of_make hr
      exact takeSteps_keeps hK hinvoke steps (C.step_of_make hr) hmark (hK.base hpick hstart) h

theorem takeSteps_keeps (hK : w.Keeping C M N) (hinvoke : InvokeKeeps M N invoke) :
    ∀ (steps : List Step) {mark : Option Mark} {position : Nat} {s t : Schema},
    (∀ step ∈ steps, C.step step) → M mark → s.Everywhere N →
    takeSteps w invoke mark position s steps = .ok t → t.Everywhere N
  | [], mark, position, s, t, _, _, hs, h => by
      rw [takeSteps] at h
      cases h
      exact hs
  | step :: rest, mark, position, s, t, hsteps, hmark, hs, h => by
      rw [takeSteps] at h
      obtain ⟨between, hbetween, h⟩ := bind_eq_ok.mp h
      have hstep := takeStep_keeps hK hinvoke step (hsteps step List.mem_cons_self)
        (hK.part position hmark) hs hbetween
      exact takeSteps_keeps hK hinvoke rest
        (fun other hmem => hsteps other (List.mem_cons_of_mem _ hmem)) hmark hstep h

/-- What one step keeps: edits by what edits are, the other steps by what they put
    into the schema. -/
theorem takeStep_keeps (hK : w.Keeping C M N) (hinvoke : InvokeKeeps M N invoke) :
    ∀ (step : Step) {mark : Option Mark} {s t : Schema}, C.step step → M mark →
    s.Everywhere N → takeStep w invoke mark s step = .ok t → t.Everywhere N := by
  intro step mark s t hstep hmark hs h
  cases step with
  | when refs rule =>
      rw [takeStep] at h
      obtain ⟨built, hbuilt, h⟩ := bind_eq_ok.mp h
      obtain ⟨hrule, hjoined⟩ := buildRule_keeps hK hinvoke rule hstep hmark hbuilt
      exact hs.when hjoined h (hK.when hs.here hrule hjoined h)
  | concat other =>
      rw [takeStep] at h
      obtain ⟨built, hbuilt, h⟩ := bind_eq_ok.mp h
      have hother := buildWith_keeps hK hinvoke other (C.recipe_of_step hstep .concat)
        hmark hbuilt
      exact Everywhere.concat hK.concat hs hother h
  | shape fields excluded =>
      rw [takeStep] at h
      obtain ⟨built, hbuilt, h⟩ := bind_eq_ok.mp h
      have hfields := buildFields_keeps hK hinvoke fields
        (fun f hf => C.recipe_of_step hstep (.field hf)) hmark hbuilt
      exact hs.shape hfields h (hK.shape hs hfields h)
  | element r =>
      rw [takeStep] at h
      obtain ⟨built, hbuilt, h⟩ := bind_eq_ok.mp h
      have helement := buildWith_keeps hK hinvoke r (C.recipe_of_step hstep .element)
        hmark hbuilt
      exact hs.of helement h (hK.of hs helement h)
  | withoutElement =>
      rw [takeStep] at h
      exact hs.withoutElement h (hK.withoutElement hs.here h)
  | apply method args =>
      rw [takeStep] at h
      exact hinvoke s method args mark t hmark hs h
  | _ =>
      have hedited := takeStep_edited (C := .all) (fun _ _ _ => trivial) trivial rfl h
      exact hs.edited hedited (hK.edit hmark hstep rfl hs.here h)

theorem buildFields_keeps (hK : w.Keeping C M N) (hinvoke : InvokeKeeps M N invoke) :
    ∀ (fields : List (String × Recipe)) {mark : Option Mark} {position : Nat}
      {built : List (String × Schema)}, (∀ f ∈ fields, C.recipe f.2) → M mark →
    buildFields w invoke mark position fields = .ok built → ∀ f ∈ built, f.2.Everywhere N
  | [], mark, position, built, _, _, h => by
      rw [buildFields] at h
      cases h
      simp
  | (key, r) :: rest, mark, position, built, hfields, hmark, h => by
      rw [buildFields] at h
      obtain ⟨s, hs, h⟩ := bind_eq_ok.mp h
      obtain ⟨others, hothers, h⟩ := bind_eq_ok.mp h
      cases h
      intro f hf
      rcases List.mem_cons.mp hf with rfl | hrest
      · exact buildWith_keeps hK hinvoke r (hfields _ List.mem_cons_self) (hK.part position hmark) hs
      · exact buildFields_keeps hK hinvoke rest
          (fun f hf => hfields f (List.mem_cons_of_mem _ hf)) hmark hothers f hrest

theorem buildRule_keeps (hK : w.Keeping C M N) (hinvoke : InvokeKeeps M N invoke) :
    ∀ (rule : Rule Recipe Recipe Step) {mark : Option Mark} {refs : List Reference}
      {built : Rule Schema Recipe Step}, C.step (.when refs rule) → M mark →
    buildRule w invoke mark rule = .ok built →
    C.rule built ∧ ∀ u ∈ built.joined, u.Everywhere N
  | .guarded guard yes no, mark, refs, built, hstep, hmark, h => by
      rw [buildRule] at h
      obtain ⟨builtYes, hyes, h⟩ := bind_eq_ok.mp h
      obtain ⟨builtNo, hno, h⟩ := bind_eq_ok.mp h
      cases h
      have hleft := buildBranch_keeps hK hinvoke yes
        (fun r heq => C.recipe_of_step hstep (heq ▸ .yes)) (hK.part 0 hmark) hyes
      have hright := buildBranch_keeps hK hinvoke no
        (fun r heq => C.recipe_of_step hstep (heq ▸ .no)) (hK.part 1 hmark) hno
      refine ⟨fun c hc => ?_, ?_⟩
      · cases hc with
        | yes view => exact C.choice_of_step hstep (hleft.2 _ rfl ▸ .yes view)
        | no view => exact C.choice_of_step hstep (hright.2 _ rfl ▸ .no view)
      · intro u hu
        obtain ⟨branch, hbranch, heq⟩ := List.mem_filterMap.mp hu
        split at heq
        · cases heq
          rcases List.mem_cons.mp hbranch with rfl | hlast
          · exact hleft.1 u rfl
          · exact hright.1 u (List.mem_singleton.mp hlast).symm
        · exact absurd heq (by simp)
  | .resolver choose, mark, refs, built, hstep, _, h => by
      rw [buildRule] at h
      cases h
      refine ⟨fun c hc => ?_, by simp [Rule.joined]⟩
      cases hc with
      | chosen values view => exact C.choice_of_step hstep (.chosen values view)

theorem buildBranch_keeps (hK : w.Keeping C M N) (hinvoke : InvokeKeeps M N invoke) :
    ∀ (branch : Option (Branch Recipe Recipe Step)) {mark : Option Mark}
      {built : Option (Branch Schema Recipe Step)},
    (∀ r, branch = some (.join r) → C.recipe r) → M mark →
    buildBranch w invoke mark branch = .ok built →
    (∀ u, built = some (.join u) → u.Everywhere N) ∧
      ∀ decide, built = some (.map decide) → branch = some (.map decide)
  | none, mark, built, _, _, h => by
      rw [buildBranch] at h
      cases h
      exact ⟨by simp, by simp⟩
  | some (.join r), mark, built, hr, hmark, h => by
      rw [buildBranch] at h
      obtain ⟨s, hs, h⟩ := bind_eq_ok.mp h
      cases h
      refine ⟨?_, by simp⟩
      rintro u heq
      cases heq
      exact buildWith_keeps hK hinvoke r (hr r rfl) hmark hs
  | some (.map decide), mark, built, _, _, h => by
      rw [buildBranch] at h
      cases h
      exact ⟨by simp, by simp⟩

end

theorem carryOut_keeps (hK : w.Keeping C M N) (hinvoke : InvokeKeeps M N invoke)
    {mark : Option Mark} (hmark : M mark) {s t : Schema} (hs : s.Everywhere N)
    {c : Choice Recipe Step} (hc : C.choice c) (h : w.carryOut invoke mark s c = .ok t) :
    t.Everywhere N := by
  cases c with
  | fail e => exact absurd h (by simp [carryOut])
  | refine steps => exact takeSteps_keeps hK hinvoke steps hc hmark hs h
  | replace r => exact buildWith_keeps hK hinvoke r hc hmark h

/-- Methods keep the property, however deeply they call one another. -/
theorem invoke_keeps (hK : w.Keeping C M N) (depth : Nat) : InvokeKeeps M N (w.invoke depth) := by
  induction depth with
  | zero =>
      intro s name args mark t _ _ h
      exact absurd h (by simp [invoke])
  | succ depth ih =>
      intro s name args mark t hmark hs h
      rw [invoke, Registry.apply] at h
      split at h
      · next method hmethod =>
          exact carryOut_keeps hK ih hmark hs (hK.methods _ _ _ s.view args hmethod) h
      · exact absurd h (by simp)

theorem Keeping.build (hK : w.Keeping C M N) (hmark : M mark) {r : Recipe} (hr : C.recipe r)
    {s : Schema} (h : w.build mark r = .ok s) : s.Everywhere N :=
  buildWith_keeps hK (invoke_keeps hK depthLimit) r hr hmark h

theorem build_keeps (hN : Kept C N) (hw : w.Supplied C N) {mark : Option Mark} {r : Recipe}
    (hr : C.recipe r) {s : Schema} (h : w.build mark r = .ok s) : s.Everywhere N :=
  (hw.keeping hN).build trivial hr h

theorem decided_keeps (hN : Kept C N) (hw : w.Supplied C N) {mark : Option Mark} {s t : Schema}
    (hs : s.Everywhere N) {c : Choice Recipe Step} (hc : C.choice c)
    (h : w.decided mark s c = .ok t) : t.Everywhere N :=
  have hK := hw.keeping hN
  carryOut_keeps hK (invoke_keeps hK depthLimit) trivial hs hc h

-- ============================================================================
-- Resolution
-- ============================================================================

variable {s t : Schema} {value : Option Value} {options : CallOptions}

theorem takeBranch_keeps (hN : Kept C N) (hw : w.Supplied C N) (hs : s.Everywhere N)
    {branch : Option (Branch Schema Recipe Step)}
    (hjoin : ∀ u, branch = some (.join u) → u.Everywhere N)
    (hmap : ∀ decide view, branch = some (.map decide) → C.choice (decide view))
    (h : w.takeBranch mark s branch = .ok t) : t.Everywhere N := by
  unfold takeBranch at h
  split at h
  · cases h
    exact hs
  · exact Everywhere.concat hN.concat hs (hjoin _ rfl) h
  · exact decided_keeps hN hw hs (hmap _ _ rfl) h

theorem takeRule_keeps (hN : Kept C N) (hw : w.Supplied C N) (hs : s.Everywhere N)
    {rule : Rule Schema Recipe Step} (hrule : C.rule rule)
    (hjoined : ∀ u ∈ rule.joined, u.Everywhere N) {values : List (Option Value)}
    (h : w.takeRule mark s values rule = .ok t) : t.Everywhere N := by
  cases rule with
  | guarded guard yes no =>
      rw [takeRule] at h
      split at h
      · refine takeBranch_keeps hN hw hs ?_ ?_ h
        · rintro u rfl
          exact hjoined u (by simp [Rule.joined])
        · rintro decide view rfl
          exact hrule _ (.yes view)
      · refine takeBranch_keeps hN hw hs ?_ ?_ h
        · rintro u rfl
          exact hjoined u (by simp [Rule.joined])
        · rintro decide view rfl
          exact hrule _ (.no view)
  | resolver choose => exact decided_keeps hN hw hs (hrule _ (.chosen values s.view)) h

theorem takeConditions_keeps (hN : Kept C N) (hw : w.Supplied C N) {position : Nat}
    {parent context : Option Value} {conditions : List (Condition Schema)} (hrules : ∀ c ∈ conditions, C.rule c.rule)
    (hjoined : ∀ c ∈ conditions, ∀ u ∈ c.rule.joined, u.Everywhere N) (hs : s.Everywhere N)
    (h : w.takeConditions mark position parent context s conditions = .ok t) : t.Everywhere N := by
  induction conditions generalizing s position with
  | nil =>
      cases h
      exact hs
  | cons c rest ih =>
      rw [takeConditions] at h
      obtain ⟨between, hbetween, h⟩ := bind_eq_ok.mp h
      have hc := takeRule_keeps hN hw hs (hrules c List.mem_cons_self)
        (hjoined c List.mem_cons_self) hbetween
      exact ih (fun other hmem => hrules other (List.mem_cons_of_mem _ hmem))
        (fun other hmem => hjoined other (List.mem_cons_of_mem _ hmem)) hc h

theorem resolveWithin_keeps (hN : Kept C N) (hw : w.Supplied C N) {depth : Nat}
    (hs : s.Everywhere N) (h : w.resolveWithin depth s value options = .ok t) : t.Everywhere N := by
  induction depth generalizing s with
  | zero => exact absurd h (by simp [resolveWithin])
  | succ depth ih =>
      rw [resolveWithin] at h
      split at h
      · next pick hkind =>
          obtain ⟨r, hr, h⟩ := bind_eq_ok.mp h
          obtain ⟨made, hmade, h⟩ := bind_eq_ok.mp h
          have hrecipe := C.recipe_of_pick (hN.pick hs.here hkind) hr
          exact ih (build_keeps hN hw hrecipe hmade) h
      · obtain ⟨taken, htaken, h⟩ := bind_eq_ok.mp h
        cases h
        have hstart := hs.clearConditions (hN.clearConditions hs.here)
        have htaken := takeConditions_keeps hN hw (fun c hc => hN.rule hs.here hc)
          (fun c hc u hu => hs.nested (.branch hc hu)) hstart htaken
        exact htaken.clearConditions (hN.clearConditions htaken.here)

/-- The effective schema for a value has what the schema has at all nodes. -/
theorem resolve_keeps (hN : Kept C N) (hw : w.Supplied C N) (hs : s.Everywhere N)
    (h : w.resolve s value options = .ok t) : t.Everywhere N :=
  resolveWithin_keeps hN hw hs h

end Workshop

end Conform
