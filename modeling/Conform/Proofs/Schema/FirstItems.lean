/-
  Conform.Proofs.Schema.FirstItems

  Keys that are applied to arrays. What a path leads to depends on the steps of the path
  and not on its text, which only messages show, so two ways of writing a step are
  compared by where it leads. A key on an array goes to the first item as the position
  zero does, but in another scope: conditions of the element schema see what contains the
  array for the key, and the array itself for the position. And the key goes to an item
  once only, where a key behind a position goes to the first item of the item.
-/

import Conform.Proofs.Path.Text
import Conform.Proofs.Schema.Reaching
import Conform.Proofs.Schema.Resolution

namespace Conform

-- ============================================================================
-- Ends of paths without their text
-- ============================================================================

theorem toOption_bind {ε α β : Type} (x : Except ε α) (f : α → Except ε β) :
    (x >>= f).toOption = x.toOption.bind fun a => (f a).toOption := by
  cases x <;> rfl

/-- The place where a walk stands, without the text of the way to it. -/
def Walk.place (walk : Walk) : Reached := ⟨walk.schema, walk.parent, walk.value⟩

namespace Reached

/-- The place of an item. -/
def item? (place : Reached) (position : Nat) : Option Reached :=
  place.schema.element?.bind fun element =>
    match place.value with
    | some (.arr items) => items[position]?.map fun item => ⟨element, place.value, some item⟩
    | _ => some ⟨element, place.parent, none⟩

/-- The place of a field. -/
def field? (place : Reached) (name : String) : Option Reached :=
  (place.schema.fields?.bind fun fields => fields.lookup name).map fun field =>
    ⟨field, place.value, place.value.bind fun v => v.field? name⟩

end Reached

namespace Workshop

variable {w : Workshop} {path : String} {context : Option Value}

/-- A place with its effective schema, if the conditions there can be carried out. -/
def settle (w : Workshop) (context : Option Value) (place : Reached) : Option Reached :=
  (w.resolve place.schema place.value (scope place.parent context)).toOption.map fun effective =>
    { place with schema := effective }

/-- The first item of a place with its effective schema in the scope of `parent`. -/
def firstItem (w : Workshop) (context : Option Value) (place : Reached) (parent : Option Value) :
    Option Reached :=
  place.schema.element?.bind fun element =>
    w.settle context ⟨element, parent, place.value.bind fun v => v.item? 0⟩

/-- The place that a key is applied to: the place itself, or its first item in the scope of
    the place if the schema is for arrays. -/
def entered (w : Workshop) (context : Option Value) (place : Reached) : Option Reached :=
  if place.schema.tag = .array then w.firstItem context place place.parent else some place

/-- The place behind one step from a place with its effective schema. -/
def stepFrom (w : Workshop) (context : Option Value) (place : Reached) :
    Segment → Option Reached
  | .index position => place.item? position
  | .key name _ => (w.entered context place).bind fun inner => inner.field? name

/-- One step, to a place with its effective schema. -/
def stride (w : Workshop) (context : Option Value) (place : Reached) (segment : Segment) :
    Option Reached :=
  (w.stepFrom context place segment).bind (w.settle context)

theorem settle_ok {s resolved : Schema} {parent value : Option Value}
    (h : w.resolve s value (scope parent context) = .ok resolved) :
    w.settle context ⟨s, parent, value⟩ = some ⟨resolved, parent, value⟩ := by
  rw [settle, h]
  rfl

theorem settle_error {s : Schema} {parent value : Option Value} {e : Failure}
    (h : w.resolve s value (scope parent context) = .error e) :
    w.settle context ⟨s, parent, value⟩ = none := by
  rw [settle, h]
  rfl

/-- A resolved schema for arrays is resolved for good. -/
theorem resolve_again {s resolved : Schema} {value : Option Value} {options : CallOptions}
    (h : w.resolve s value options = .ok resolved) (harray : resolved.tag = .array) :
    w.resolve resolved value options = .ok resolved := by
  obtain ⟨u, t, -, -, -, rfl⟩ := resolveWithin_eq_ok h
  refine resolve_self (fun pick hkind => ?_) rfl value options
  rw [Schema.tag, hkind] at harray
  exact absurd harray (by simp [Kind.tag])

theorem toOption_stepToItem (walk : Walk) (position : Nat) :
    (stepToItem w path context walk position).toOption.map Walk.place =
      (w.settle context walk.place).bind fun place => place.item? position := by
  obtain ⟨schema, parent, value, walked⟩ := walk
  rw [stepToItem, Walk.place]
  cases hresolve : w.resolve schema value (scope parent context) with
  | error e =>
      rw [settle_error hresolve]
      rfl
  | ok resolved =>
      rw [settle_ok hresolve, Option.bind_some, Reached.item?]
      dsimp only [bind, Except.bind]
      cases helement : resolved.element? with
      | none => simp [elementOf, helement, Except.toOption]
      | some element =>
          simp only [elementOf, helement, Option.bind_some]
          rcases value with _ | v
          · rfl
          · cases v with
            | arr items =>
                dsimp only
                cases items[position]? <;> rfl
            | _ => rfl

theorem toOption_enterFirst (walk : Walk) :
    (enterFirst w path context walk).toOption =
      ((w.settle context walk.place).bind (w.entered context)).map
        fun inner => (inner.schema, inner.value) := by
  obtain ⟨schema, parent, value, walked⟩ := walk
  rw [enterFirst, Walk.place]
  cases hresolve : w.resolve schema value (scope parent context) with
  | error e =>
      rw [settle_error hresolve]
      rfl
  | ok resolved =>
      rw [settle_ok hresolve, Option.bind_some, entered]
      dsimp only [bind, Except.bind]
      by_cases harray : resolved.tag = .array
      · rw [if_pos harray, if_pos harray, resolve_again hresolve harray, firstItem]
        cases helement : resolved.element? with
        | none => simp [elementOf, helement, Except.toOption]
        | some element =>
            simp only [elementOf, helement, Option.bind_some]
            cases hinner : w.resolve element (value.bind fun v => v.item? 0)
                (scope parent context) with
            | error e =>
                rw [settle_error hinner]
                rfl
            | ok inner =>
                rw [settle_ok hinner]
                rfl
      · rw [if_neg harray, if_neg harray]
        rfl

theorem toOption_stepToField (walk : Walk) (name : String) (isQuoted : Bool) :
    (stepToField w path context walk name isQuoted).toOption.map Walk.place =
      (w.settle context walk.place).bind fun place =>
        (w.entered context place).bind fun inner => inner.field? name := by
  rw [stepToField, toOption_bind, toOption_enterFirst, ← Option.bind_assoc]
  cases (w.settle context walk.place).bind (w.entered context) with
  | none => rfl
  | some inner =>
      simp only [Option.map_some, Option.bind_some, Reached.field?]
      cases inner.schema.fields?.bind fun fields => fields.lookup name <;> rfl

/-- A step of a path leads where the step without texts does. -/
theorem toOption_walk (walk : Walk) (segment : Segment) :
    (w.walk path context walk segment).toOption.map Walk.place =
      (w.settle context walk.place).bind fun place => w.stepFrom context place segment := by
  cases segment with
  | index position => exact toOption_stepToItem walk position
  | key name isQuoted => exact toOption_stepToField walk name isQuoted

/-- Every walk along a path leads where its strides do. -/
theorem toOption_foldlM_walk (w : Workshop) (path : String) (context : Option Value)
    (segments : List Segment) (walk : Walk) :
    ((segments.foldlM (w.walk path context) walk).toOption.bind fun last =>
        w.settle context last.place) =
      (w.settle context walk.place).bind fun start => segments.foldlM (w.stride context) start := by
  induction segments generalizing walk with
  | nil => exact (Option.bind_fun_some _).symm
  | cons segment rest ih =>
      calc ((w.walk path context walk segment >>= fun next =>
              rest.foldlM (w.walk path context) next).toOption.bind fun last =>
                w.settle context last.place)
        _ = (w.walk path context walk segment).toOption.bind fun next =>
              (w.settle context next.place).bind fun start =>
                rest.foldlM (w.stride context) start := by
            rw [toOption_bind, Option.bind_assoc]
            simp only [ih]
        _ = ((w.walk path context walk segment).toOption.map Walk.place).bind fun next =>
              (w.settle context next).bind fun start => rest.foldlM (w.stride context) start := by
            rw [Option.bind_map]
            rfl
        _ = (w.settle context walk.place).bind fun start =>
              (w.stride context start segment).bind fun next =>
                rest.foldlM (w.stride context) next := by
            rw [toOption_walk, Option.bind_assoc]
            simp only [stride, Option.bind_assoc]

/-- A path leads where its strides do, if it leads anywhere. -/
theorem toOption_reach (s : Schema) (value : Option Value) :
    (w.reach s path value context).toOption =
      (w.settle (context <|> value) ⟨s, none, value⟩).bind fun start =>
        (Path.parse path).foldlM (w.stride (context <|> value)) start := by
  have hwalk := toOption_foldlM_walk w path (context <|> value) (Path.parse path)
    ⟨s, none, value, ""⟩
  rw [reach, toOption_bind]
  refine Eq.trans (congrArg _ (funext fun last => ?_)) hwalk
  rw [toOption_bind, settle, Walk.place]
  cases w.resolve last.schema last.value (scope last.parent (context <|> value)) <;> rfl

/-- A path that goes on behind another leads where its further strides do. -/
theorem toOption_reach_behind {s : Schema} {start longer : String} {value : Option Value}
    {found : Reached} {steps : List Segment} (hfound : w.reach s start value context = .ok found)
    (hsteps : Path.parse longer = Path.parse start ++ steps) :
    (w.reach s longer value context).toOption =
      steps.foldlM (w.stride (context <|> value)) found := by
  have hto : some found = (w.settle (context <|> value) ⟨s, none, value⟩).bind fun place =>
      (Path.parse start).foldlM (w.stride (context <|> value)) place := by
    rw [← toOption_reach, hfound]
    rfl
  rw [toOption_reach, hsteps]
  simp only [List.foldlM_append]
  refine (Option.bind_assoc ..).symm.trans ?_
  rw [← hto]
  rfl

-- ============================================================================
-- First items
-- ============================================================================

variable {place found : Reached} {first : Value} {items : List Value} {name : String}
  {isQuoted : Bool}

theorem stride_first (h : place.value = some (.arr (first :: items))) :
    w.stride context place (.index 0) = w.firstItem context place place.value := by
  rw [stride, stepFrom, Reached.item?, Option.bind_assoc, firstItem, h]
  rfl

theorem stride_array_key (h : place.schema.tag = .array) :
    w.stride context place (.key name isQuoted) =
      ((w.firstItem context place place.parent).bind fun item => item.field? name).bind
        (w.settle context) := by
  rw [stride, stepFrom, entered, if_pos h]

theorem stride_key (h : place.schema.tag ≠ .array) :
    w.stride context place (.key name isQuoted) =
      (place.field? name).bind (w.settle context) := by
  rw [stride, stepFrom, entered, if_neg h]
  rfl

/-- A schema for arrays has no fields. -/
theorem field?_array (h : place.schema.tag = .array) : place.field? name = none := by
  have hfields : place.schema.fields? = none := by
    rw [Schema.tag] at h
    rw [Schema.fields?]
    cases hkind : place.schema.kind <;> simp [hkind, Kind.tag] at h ⊢
  rw [Reached.field?, hfields]
  rfl

theorem field?_congr {other : Reached} (hschema : place.schema = other.schema)
    (hvalue : place.value = other.value) : place.field? name = other.field? name := by
  rw [Reached.field?, Reached.field?, hschema, hvalue]

/-- Whether a key leads from an array to the same place as behind the position zero. -/
def SameField (w : Workshop) (context : Option Value) (place : Reached) (name : String)
    (isQuoted : Bool) : Prop :=
  w.stride context place (.key name isQuoted) =
    (w.stride context place (.index 0)).bind fun item => w.stride context item (.key name isQuoted)

theorem value_of_firstItem {parent : Option Value} {item : Reached}
    (h : w.firstItem context place parent = some item) :
    item.value = place.value.bind fun v => v.item? 0 := by
  obtain ⟨element, -, hsettle⟩ := Option.bind_eq_some_iff.mp h
  obtain ⟨effective, -, rfl⟩ := Option.map_eq_some_iff.mp hsettle
  rfl

theorem firstItem_fixed {element : Schema} (helement : place.schema.element? = some element)
    (hfixed : element.Fixed) (parent : Option Value) :
    w.firstItem context place parent =
      some ⟨element, parent, place.value.bind fun v => v.item? 0⟩ := by
  rw [firstItem, helement, Option.bind_some]
  exact settle_ok (hfixed.resolve w _ _)

/-- The key leads to the same field where the elements have one effective schema in both
    scopes, and no items of their own. -/
theorem sameField_of_firstItem (harray : place.schema.tag = .array)
    (hitems : place.value = some (.arr (first :: items)))
    (hscopes : (w.firstItem context place place.parent).map Reached.schema =
      (w.firstItem context place place.value).map Reached.schema)
    (hflat : ∀ item, w.firstItem context place place.value = some item →
      item.schema.tag ≠ .array) :
    w.SameField context place name isQuoted := by
  rw [SameField, stride_array_key harray, stride_first hitems]
  cases hbehind : w.firstItem context place place.value with
  | none =>
      rw [hbehind, Option.map_none, Option.map_eq_none_iff] at hscopes
      rw [hscopes]
      rfl
  | some behind =>
      rw [hbehind] at hscopes
      obtain ⟨beside, hbeside, hschema⟩ := Option.map_eq_some_iff.mp hscopes
      have hvalue : beside.value = behind.value :=
        (value_of_firstItem hbeside).trans (value_of_firstItem hbehind).symm
      rw [hbeside, Option.bind_some, Option.bind_some, stride_key (hflat behind hbehind),
        field?_congr hschema hvalue]

/-- Behind a path to an array, a key leads where it does behind the position zero, with
    whatever comes next, if it leads to the same field there; with nothing next, only then.
    It does where the elements have one effective schema in the scope of what contains the
    array and in that of the array, and no items of their own. A key leads nowhere where
    the elements are arrays again. -/
theorem reach_first_item_iff {s : Schema} {p q : String} {value : Option Value}
    {rest : List Segment} (hp : Path.Closed p) (hfound : w.reach s p value context = .ok found)
    (harray : found.schema.tag = .array) (hitems : found.value = some (.arr (first :: items)))
    (hq : Path.parse q = .key name isQuoted :: rest) :
    let own := context <|> value
    let byKey := (w.reach s (p ++ "." ++ q) value context).toOption
    let byPosition := (w.reach s (p ++ "[0]" ++ "." ++ q) value context).toOption
    let beside := w.firstItem own found found.parent
    let behind := w.firstItem own found found.value
    (w.SameField own found name isQuoted → byKey = byPosition) ∧
    (rest = [] → byKey = byPosition → w.SameField own found name isQuoted) ∧
    (beside.map Reached.schema = behind.map Reached.schema →
      (∀ item, behind = some item → item.schema.tag ≠ .array) → byKey = byPosition) ∧
    (∀ item, beside = some item → item.schema.tag = .array → byKey = none) := by
  intro own byKey byPosition beside behind
  have hfirst : Path.Reads (p ++ "[0]") (Path.parse p ++ [.index 0]) := by
    have htext : "[" ++ (toString 0 ++ "]") = "[0]" := by decide
    rw [← htext]
    exact hp.reads.append (Path.reads_position (Nat.zero_le _)) fun _ _ => Path.goesOn_bracket _ _
  have hkey : byKey = (w.stride own found (.key name isQuoted)).bind fun field =>
      rest.foldlM (w.stride own) field :=
    toOption_reach_behind hfound (by rw [hp.reads.parse_point, hq])
  have hposition : byPosition =
      ((w.stride own found (.index 0)).bind fun item =>
        w.stride own item (.key name isQuoted)).bind fun field =>
          rest.foldlM (w.stride own) field := by
    have hsteps : Path.parse (p ++ "[0]" ++ "." ++ q) =
        Path.parse p ++ .index 0 :: .key name isQuoted :: rest := by
      rw [hfirst.parse_point, hq, List.append_assoc]
      rfl
    exact (toOption_reach_behind hfound hsteps).trans (Option.bind_assoc ..).symm
  have hagree (hsame : w.SameField own found name isQuoted) : byKey = byPosition := by
    rw [hkey, hposition, hsame]
  have hplain (hscopes : beside.map Reached.schema = behind.map Reached.schema)
      (hflat : ∀ item, behind = some item → item.schema.tag ≠ .array) :
      w.SameField own found name isQuoted :=
    sameField_of_firstItem harray hitems hscopes hflat
  refine ⟨hagree, ?_, fun hscopes hflat => hagree (hplain hscopes hflat), ?_⟩
  · rintro rfl hequal
    rw [hkey, hposition] at hequal
    exact (Option.bind_fun_some _).symm.trans (hequal.trans (Option.bind_fun_some _))
  · intro item (hitem : w.firstItem own found found.parent = some item) hinner
    rw [hkey, stride_array_key harray, hitem, Option.bind_some, field?_array hinner]
    rfl

/-- A form with plain rows, totals that have a sum where the flag is on, and a grid. -/
def form : Recipe :=
  .make .object [.shape [
    ("flag", .plain .string),
    ("rows", .make .array [.element (.make .object [.shape [("name", .plain .string)] []])]),
    ("totals", .make .array [.element (.make .object [.when [Reference.ofKey "flag"]
      (.guarded (.equal (.str "on")) (some (.refine [.shape [("sum", .plain .number)] []]))
        none)])]),
    ("grid", .make .array [.element (.make .array [.element
      (.make .object [.shape [("x", .plain .number)] []])])])] []]

/-- The form filled in, with the flag on. -/
def filledForm : Value :=
  .obj [("flag", .str "on"), ("grid", .arr [.arr [.obj [("x", .int 3)]]]),
    ("rows", .arr [.obj [("name", .str "a")]]), ("totals", .arr [.obj [("sum", .int 2)]])]

/-- In plain rows the key leads where it does behind the position. It finds the sum of the
    totals, which is not there behind the position, since the flag is looked for in the
    array then. In the grid it leads nowhere, and to a field behind the position. -/
theorem reach_first_item_form :
    ∃ s totals, initial.build none form = .ok s ∧
      (initial.reach s "rows.name" (some filledForm) none).toOption =
        (initial.reach s "rows[0].name" (some filledForm) none).toOption ∧
      initial.reach s "totals" (some filledForm) none = .ok totals ∧
      ¬ initial.SameField (some filledForm) totals "sum" false ∧
      (initial.reach s "grid.x" (some filledForm) none).toOption = none ∧
      (initial.reach s "grid[0].x" (some filledForm) none).toOption.isSome = true := by
  obtain ⟨s, rows, row, totals, grid, line, hs, hrows, hrowsTag, hrowsValue, hrow, hrowFixed,
      hrowTag, htotals, htotalsTag, htotalsValue, hsum, hnoSum, hgrid, hgridTag, hgridValue, hline,
      hlineFixed, hlineTag, hx⟩ :
      ∃ s rows row totals grid line, initial.build none form = .ok s ∧
        initial.reach s "rows" (some filledForm) none = .ok rows ∧ rows.schema.tag = .array ∧
        rows.value = some (.arr [.obj [("name", .str "a")]]) ∧
        rows.schema.element? = some row ∧ row.Fixed ∧ row.tag = .object ∧
        initial.reach s "totals" (some filledForm) none = .ok totals ∧
        totals.schema.tag = .array ∧ totals.value = some (.arr [.obj [("sum", .int 2)]]) ∧
        (initial.reach s "totals.sum" (some filledForm) none).toOption.isSome = true ∧
        (initial.reach s "totals[0].sum" (some filledForm) none).toOption = none ∧
        initial.reach s "grid" (some filledForm) none = .ok grid ∧ grid.schema.tag = .array ∧
        grid.value = some (.arr [.arr [.obj [("x", .int 3)]]]) ∧
        grid.schema.element? = some line ∧ line.Fixed ∧ line.tag = .array ∧
        (initial.reach s "grid[0].x" (some filledForm) none).toOption.isSome = true :=
    ⟨_, _, _, _, _, _, rfl, rfl, rfl, rfl, rfl, ⟨fun _ h => (nomatch h), rfl⟩, rfl, rfl, rfl, rfl,
      rfl, rfl, rfl, rfl, rfl, rfl, ⟨fun _ h => (nomatch h), rfl⟩, rfl, rfl⟩
  obtain ⟨-, -, hplain, -⟩ := reach_first_item_iff (by decide) hrows hrowsTag hrowsValue
    (rfl : Path.parse "name" = [.key "name" false])
  obtain ⟨hsame, -, -, -⟩ := reach_first_item_iff (by decide) htotals htotalsTag htotalsValue
    (rfl : Path.parse "sum" = [.key "sum" false])
  obtain ⟨-, -, -, hnested⟩ := reach_first_item_iff (by decide) hgrid hgridTag hgridValue
    (rfl : Path.parse "x" = [.key "x" false])
  refine ⟨s, totals, hs, hplain ?_ ?_, htotals, fun hfield => ?_,
    hnested _ (firstItem_fixed hline hlineFixed _) hlineTag, hx⟩
  · rw [firstItem_fixed hrow hrowFixed, firstItem_fixed hrow hrowFixed]
    rfl
  · intro item hitem
    rw [firstItem_fixed hrow hrowFixed] at hitem
    obtain rfl := Option.some.inj hitem
    simp [hrowTag]
  · have hnone : (initial.reach s "totals.sum" (some filledForm) none).toOption = none :=
      (hsame hfield).trans hnoSum
    rw [hnone] at hsum
    exact absurd hsum (by simp)

end Workshop

end Conform
