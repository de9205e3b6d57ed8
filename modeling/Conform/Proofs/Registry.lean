/-
  Conform.Proofs.Registry

  Methods of a registry, told by the calls that registered them. A call is refused for lazy
  schemas and for names that are no identifiers, and then nothing changes; any other call
  replaces what its kind and its name had. So the last call that was taken decides which
  method runs, the schema's own kind before mixed schemas, and a name that no call was taken
  for is refused before a method runs. The short names of a registry with aliases count as
  calls that came first. What a method is, and what becomes of the schema when it runs, is
  left open: it may look at the whole schema, and it may fail.
-/

import Conform.Schema.Build
import Conform.Proofs.Text.Ascii

namespace Conform

-- ============================================================================
-- Identifiers
-- ============================================================================

/-- Whether a text is an identifier: letters, digits and underscores of ASCII, at least one,
    and no digit in front. -/
structure IsIdentifier (name : String) : Prop where
  nonempty : name.toList ≠ []
  chars : ∀ c ∈ name.toList, isNameChar c = true
  start : ∀ c, name.toList.head? = some c → c.isDigit = false

namespace Registry

theorem isNameChar_eq (c : Char) : (isNameStart c || c.isDigit) = isNameChar c := by
  rw [isNameStart, isNameChar, Char.isAlphanum, Bool.or_right_comm]
  rfl

/-- A name starts with a character of names that is no digit. -/
theorem isNameStart_iff {c : Char} :
    isNameStart c = true ↔ isNameChar c = true ∧ c.isDigit = false := by
  have hchar (h : isNameStart c = true) : isNameChar c = true := by
    rw [← isNameChar_eq, h, Bool.true_or]
  have hascii (h : isNameChar c = true) :
      isNameStart c = true ↔ isNameChar c = true ∧ c.isDigit = false :=
    forall_ascii (p := fun c => isNameStart c = true ↔ isNameChar c = true ∧ c.isDigit = false)
      (by decide) (toNat_lt_of_isNameChar h)
  exact ⟨fun h => (hascii (hchar h)).mp h, fun h => (hascii h.1).mpr h⟩

theorem isName_iff {name : String} : isName name = true ↔ IsIdentifier name := by
  rw [isName]
  simp only [isNameChar_eq]
  constructor
  · intro h
    split at h
    · exact absurd h (by decide)
    · next c cs hname =>
        obtain ⟨hc, hcs⟩ := (Bool.and_eq_true _ _).mp h
        obtain ⟨hchar, hdigit⟩ := isNameStart_iff.mp hc
        refine ⟨by simp [hname], ?_, fun d hd => ?_⟩
        · rw [hname, List.forall_mem_cons]
          exact ⟨hchar, List.all_eq_true.mp hcs⟩
        · rw [hname] at hd
          obtain rfl : c = d := Option.some.inj hd
          exact hdigit
  · rintro ⟨hnonempty, hchars, hstart⟩
    obtain ⟨c, cs, hname⟩ := List.exists_cons_of_ne_nil hnonempty
    rw [hname, List.forall_mem_cons] at hchars
    rw [hname] at hstart
    simp only [hname, isNameStart_iff.mpr ⟨hchars.1, hstart c rfl⟩, Bool.true_and]
    exact List.all_eq_true.mpr hchars.2

instance (name : String) : Decidable (IsIdentifier name) := decidable_of_iff _ isName_iff

end Registry

-- ============================================================================
-- Calls
-- ============================================================================

variable {μ : Type}

/-- Whether a method can be registered under its kind and its name. -/
def MethodEntry.Registrable (e : MethodEntry μ) : Prop := e.kind ≠ .lazy ∧ IsIdentifier e.name

instance (e : MethodEntry μ) : Decidable e.Registrable :=
  inferInstanceAs (Decidable (e.kind ≠ .lazy ∧ IsIdentifier e.name))

namespace Registry

variable {r : Registry μ} {e x : MethodEntry μ} {kind : KindTag} {name : String}
  {calls : List (MethodEntry μ)}

theorem register_of_registrable (h : e.Registrable) :
    r.register e.kind e.name e.method = (r.insert e, .ok ()) := by
  rw [register, if_neg h.1, if_pos (isName_iff.mpr h.2)]

/-- A call that is refused hands back the registry as it was. -/
theorem register_of_not_registrable (h : ¬ e.Registrable) :
    ∃ f, r.register e.kind e.name e.method = (r, .error f) := by
  rw [register]
  split
  · exact ⟨_, rfl⟩
  · next hlazy =>
      rw [if_neg fun hname => h ⟨hlazy, isName_iff.mp hname⟩]
      exact ⟨_, rfl⟩

/-- A call fails exactly for lazy schemas and for names that are no identifiers. -/
theorem register_fails_iff :
    (∃ f, (r.register e.kind e.name e.method).2 = .error f) ↔ ¬ e.Registrable := by
  constructor
  · rintro ⟨f, hf⟩ h
    rw [register_of_registrable h] at hf
    exact absurd hf (by simp)
  · intro h
    obtain ⟨f, hf⟩ := register_of_not_registrable (r := r) h
    exact ⟨f, by rw [hf]⟩

/-- The registry behind a call. -/
def called (r : Registry μ) (e : MethodEntry μ) : Registry μ :=
  (r.register e.kind e.name e.method).1

theorem called_of_registrable (h : e.Registrable) : r.called e = r.insert e := by
  rw [called, register_of_registrable h]

theorem called_of_not_registrable (h : ¬ e.Registrable) : r.called e = r := by
  obtain ⟨f, hf⟩ := register_of_not_registrable (r := r) h
  rw [called, hf]

-- ============================================================================
-- Entries
-- ============================================================================

theorem mem_place {es : List (MethodEntry μ)} (h : e ∈ place x es) : e = x ∨ e ∈ es := by
  induction es with
  | nil => exact .inl (List.mem_singleton.mp h)
  | cons first rest ih =>
      rw [place] at h
      split at h
      · exact (List.mem_cons.mp h).imp_right (List.mem_cons_of_mem _)
      · split at h
        · exact List.mem_cons.mp h
        · rcases List.mem_cons.mp h with rfl | hrest
          · exact .inr List.mem_cons_self
          · exact (ih hrest).imp_right (List.mem_cons_of_mem _)

theorem isFor_iff : e.isFor kind name = true ↔ e.kind = kind ∧ e.name = name := by
  rw [MethodEntry.isFor, Bool.and_eq_true, beq_iff_eq, beq_iff_eq]

/-- Two entries for one kind and name are each for the kind and name of the other. -/
theorem isFor_of_isFor (he : e.isFor kind name = true) (hx : x.isFor kind name = true) :
    e.isFor x.kind x.name = true := by
  obtain ⟨hkind, hname⟩ := isFor_iff.mp hx
  rwa [hkind, hname]

theorem isFor_congr (h : e.isFor x.kind x.name = true) :
    e.isFor kind name = x.isFor kind name := by
  obtain ⟨hkind, hname⟩ := isFor_iff.mp h
  rw [MethodEntry.isFor, MethodEntry.isFor, hkind, hname]

/-- The entry of a kind and a name behind an insertion is the new one if it is of them, else
    the one from before. -/
theorem find?_place (x : MethodEntry μ) (es : List (MethodEntry μ)) (kind : KindTag) (name : String) :
    (place x es).find? (fun e => e.isFor kind name) =
      if x.isFor kind name then some x else es.find? fun e => e.isFor kind name := by
  induction es with
  | nil =>
      rw [place, List.find?_cons]
      cases x.isFor kind name <;> rfl
  | cons first rest ih =>
      rw [place, List.find?_cons (a := first)]
      split
      · next hsame =>
          rw [List.find?_cons, isFor_congr hsame]
          cases x.isFor kind name <;> rfl
      · next hother =>
          split
          · rw [List.find?_cons, List.find?_cons]
            cases x.isFor kind name <;> rfl
          · rw [List.find?_cons, ih]
            cases hfirst : first.isFor kind name with
            | false => rfl
            | true =>
                have hx : x.isFor kind name = false :=
                  Bool.eq_false_iff.mpr fun hx => hother (isFor_of_isFor hfirst hx)
                rw [hx]
                rfl

/-- Whether a call puts its method under a kind and a name. -/
def Serves (e : MethodEntry μ) (kind : KindTag) (name : String) : Prop :=
  e.kind = kind ∧ e.name = name ∧ e.Registrable

instance (e : MethodEntry μ) (kind : KindTag) (name : String) :
    Decidable (Serves e kind name) :=
  inferInstanceAs (Decidable (_ ∧ _ ∧ _))

/-- One call sets the entry of its kind and its name, if it is taken, and no other one. -/
theorem find?_called (r : Registry μ) (e : MethodEntry μ) (kind : KindTag) (name : String) :
    (r.called e).entries.find? (fun x => x.isFor kind name) =
      if Serves e kind name then some e else r.entries.find? fun x => x.isFor kind name := by
  by_cases h : e.Registrable
  · rw [called_of_registrable h, insert, find?_place]
    by_cases hfor : e.isFor kind name = true
    · obtain ⟨hkind, hname⟩ := isFor_iff.mp hfor
      rw [if_pos hfor, if_pos ⟨hkind, hname, h⟩]
    · rw [if_neg hfor, if_neg fun hserves => hfor (isFor_iff.mpr ⟨hserves.1, hserves.2.1⟩)]
  · rw [called_of_not_registrable h, if_neg fun hserves => h hserves.2.2]

/-- The last call that put its method under a kind and a name. -/
def lastFor? (calls : List (MethodEntry μ)) (kind : KindTag) (name : String) :
    Option (MethodEntry μ) :=
  (calls.filter fun e => Serves e kind name).getLast?

theorem lastFor?_cons (e : MethodEntry μ) (rest : List (MethodEntry μ)) (kind : KindTag)
    (name : String) : lastFor? (e :: rest) kind name =
      (lastFor? rest kind name).or (if Serves e kind name then some e else none) := by
  rw [lastFor?, lastFor?, List.filter_cons]
  by_cases h : Serves e kind name
  · rw [if_pos (decide_eq_true h), if_pos h, List.getLast?_cons]
    cases (rest.filter fun e => Serves e kind name).getLast? <;> rfl
  · rw [if_neg (by simpa using h), if_neg h, Option.or_none]

/-- After calls the entry of a kind and a name is that of the last call for them, and without
    one it is the entry from before. -/
theorem find?_foldl_called (calls : List (MethodEntry μ)) (r : Registry μ) (kind : KindTag)
    (name : String) : (calls.foldl called r).entries.find? (fun e => e.isFor kind name) =
      (lastFor? calls kind name).or (r.entries.find? fun e => e.isFor kind name) := by
  induction calls generalizing r with
  | nil => rfl
  | cons e rest ih =>
      rw [List.foldl_cons, ih, find?_called, lastFor?_cons, Option.or_assoc]
      split <;> rfl

/-- Calls leave only entries that can be registered. -/
theorem registrable_of_mem_foldl_called (hr : ∀ e ∈ r.entries, e.Registrable) :
    ∀ e ∈ (calls.foldl called r).entries, e.Registrable := by
  induction calls generalizing r with
  | nil => exact hr
  | cons c rest ih =>
      refine ih fun e he => ?_
      by_cases h : c.Registrable
      · rw [called_of_registrable h] at he
        rcases mem_place he with rfl | hold
        · exact h
        · exact hr e hold
      · rw [called_of_not_registrable h] at he
        exact hr e he

-- ============================================================================
-- Dispatch
-- ============================================================================

/-- How a registry begins: with nothing, or with short names for a method that allows its
    arguments and for one that denies them. -/
inductive Start (μ : Type) where
  | bare
  | aliased (allow deny : μ)

namespace Start

def registry : Start μ → Registry μ
  | bare => .empty
  | aliased allow deny => .aliased allow deny

/-- The calls that a registry begins with. -/
def firstCalls : Start μ → List (MethodEntry μ)
  | bare => []
  | aliased allow deny =>
    [⟨.mixed, "equals", allow⟩, ⟨.mixed, "is", allow⟩, ⟨.mixed, "not", deny⟩,
      ⟨.mixed, "nope", deny⟩]

theorem registry_eq (start : Start μ) : start.registry = start.firstCalls.foldl called .empty := by
  cases start with
  | bare => rfl
  | aliased allow deny =>
      have hmixed {name : String} {method : μ} (hname : IsIdentifier name) :
          (⟨.mixed, name, method⟩ : MethodEntry μ).Registrable := ⟨nofun, hname⟩
      simp only [firstCalls, List.foldl_cons, List.foldl_nil]
      rw [called_of_registrable (hmixed (by decide)), called_of_registrable (hmixed (by decide)),
        called_of_registrable (hmixed (by decide)), called_of_registrable (hmixed (by decide))]
      rfl

end Start

/-- The method for a kind is that of the last call for the kind and the name, else that of the
    last one for mixed schemas. -/
theorem method?_foldl_called (history : List (MethodEntry μ)) (kind : KindTag) (name : String) :
    (history.foldl called .empty).method? kind name =
      (lastFor? history kind name <|> lastFor? history .mixed name).map MethodEntry.method := by
  have hown (kind : KindTag) : (history.foldl called .empty).own? kind name =
      (lastFor? history kind name).map MethodEntry.method := by
    rw [own?, find?_foldl_called]
    exact congrArg _ (Option.or_none)
  rw [method?, hown, hown]
  cases lastFor? history kind name <;> rfl

/-- Behind any calls on a registry, every entry is of a kind that is not lazy and has an
    identifier as its name. A call fails exactly if its kind is lazy or its name is no
    identifier, and then it changes nothing. A method that is applied to a schema is the one
    of the last call that was taken for the kind of the schema and the name, else the one of
    the last call that was taken for mixed schemas, and what comes of it is what comes of
    running it; if there is neither, the registry does not have the name for this kind, and
    no method runs. -/
theorem last_call_dispatches (start : Start μ) (calls : List (MethodEntry μ)) :
    let r := calls.foldl called start.registry
    let history := start.firstCalls ++ calls
    (∀ e ∈ r.entries, e.kind ≠ .lazy ∧ IsIdentifier e.name) ∧
    (∀ e : MethodEntry μ,
      ((∃ f, (r.register e.kind e.name e.method).2 = .error f) ↔
        e.kind = .lazy ∨ ¬ IsIdentifier e.name) ∧
      ((∃ f, (r.register e.kind e.name e.method).2 = .error f) →
        (r.register e.kind e.name e.method).1 = r)) ∧
    ∀ (run : μ → Schema → Result Schema) (s : Schema) (name : String),
      match lastFor? history s.tag name <|> lastFor? history .mixed name with
      | some e => r.has s.tag name = true ∧ r.apply run s name = run e.method s
      | none => r.has s.tag name = false ∧ r.apply run s name = .error (.unknownMethod name s.tag) := by
  intro r history
  have hr : r = history.foldl called .empty := by
    rw [List.foldl_append, ← Start.registry_eq]
  refine ⟨?_, fun e => ⟨?_, fun hfails => called_of_not_registrable (register_fails_iff.mp hfails)⟩,
    fun run s name => ?_⟩
  · rw [hr]
    exact registrable_of_mem_foldl_called (fun e he => absurd he (by simp [Registry.empty]))
  · rw [register_fails_iff, MethodEntry.Registrable, Decidable.not_and_iff_not_or_not,
      Decidable.not_not]
  · have hmethod := method?_foldl_called history s.tag name
    rw [← hr] at hmethod
    split
    · next e hlast =>
        rw [hlast] at hmethod
        exact ⟨by rw [has, hmethod]; rfl, by rw [apply, hmethod]; rfl⟩
    · next hlast =>
        rw [hlast] at hmethod
        exact ⟨by rw [has, hmethod]; rfl, by rw [apply, hmethod]; rfl⟩

end Registry

/-- A step that applies a method calls it on the registry. -/
theorem Workshop.takeStep_apply (w : Workshop) (depth : Nat) (mark : Option Mark) (s : Schema)
    (name : String) (args : List Value) :
    takeStep w (w.invoke (depth + 1)) mark s (.apply name args) =
      w.registry.apply (fun method s => w.carryOut (w.invoke depth) mark s (method s.view args)) s
        name := by
  rw [takeStep]
  exact rfl

/-- A method for texts. -/
def slugMethod : MethodEntry Method := ⟨.string, "slug", fun _ _ => .refine [.trim, .lowercase]⟩

/-- A method for lazy schemas, which have none. -/
def lazyMethod : MethodEntry Method := ⟨.lazy, "slug", fun _ _ => .refine [.required]⟩

/-- A method that looks at the schema, and fails where null is not allowed. -/
def pickyMethod : MethodEntry Method :=
  ⟨.mixed, "equals", fun view _ =>
    if view.nullable then .refine [.label "same"] else .refuse "no null"⟩

/-- Calls of which the second and the last are refused. -/
def someCalls : List (MethodEntry Method) :=
  [slugMethod, lazyMethod, pickyMethod, ⟨.string, "2slug", fun _ _ => .refine []⟩]

open Registry in
/-- A method for mixed schemas replaces the short name and serves numbers, where it decides
    by the schema and may fail; a method for texts does not serve numbers. -/
theorem Registry.last_call_dispatches_number :
    let r := someCalls.foldl called .withAliases
    let w := { Workshop.initial with registry := r }
    let s := Schema.fresh .standard .number
    (slugMethod ∈ r.entries ∧ IsIdentifier "slug") ∧
      ((∃ f, (r.register .lazy "slug" lazyMethod.method).2 = .error f) ∧
        (r.register .lazy "slug" lazyMethod.method).1 = r) ∧
      w.takeStep (w.invoke 1) none s (.apply "equals" []) = .error (.rejected "no null") ∧
      w.takeStep (w.invoke 1) none (s.setNullable true) (.apply "equals" []) =
        .ok ((s.setNullable true).setLabel "same") ∧
      r.has .number "slug" = false ∧
      w.takeStep (w.invoke 1) none s (.apply "slug" []) =
        .error (.unknownMethod "slug" .number) := by
  intro r w s
  obtain ⟨hentries, hcalls, happly⟩ := last_call_dispatches
    (.aliased (fun _ args => .refine [.oneOf (args.map .value)])
      fun _ args => .refine [.notOneOf (args.map .value)]) someCalls
  have hslug : slugMethod ∈ r.entries := by
    have hfound : r.entries.find? (fun e => e.isFor .string "slug") = some slugMethod := rfl
    exact List.mem_of_find?_eq_some hfound
  have hfails := (hcalls lazyMethod).1.mpr (.inl rfl)
  have hrun := fun s name => happly
    (fun method s => w.carryOut (w.invoke 0) none s (method s.view [])) s name
  simp only [Workshop.takeStep_apply]
  exact ⟨⟨hslug, (hentries slugMethod hslug).2⟩, ⟨hfails, (hcalls lazyMethod).2 hfails⟩,
    (hrun s "equals").2, (hrun (s.setNullable true) "equals").2, (hrun s "slug").1,
    (hrun s "slug").2⟩

end Conform
