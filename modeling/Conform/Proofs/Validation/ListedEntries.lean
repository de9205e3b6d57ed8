/-
  Conform.Proofs.Validation.ListedEntries

  Which of the entries that a list was ever given decide on a value. All literals do. A
  reference does only if no later one has its key: the lists keep references by their
  keys alone, though references of one key may differ in prefix and map, and what the
  earlier one resolves to is forgotten.
-/

import Conform.Proofs.Schema.Enforcement
import Conform.Proofs.Schema.Readding
import Conform.Proofs.Schema.Separation
import Conform.Proofs.Validation.Acceptance

namespace Conform

namespace Node

variable {n : Node} {set : EntrySet} {entries : List Param} {v : Value}

/-- A value is listed behind additions if it is that of an entry that counts. -/
theorem lists_foldl_add_iff (hn : n.value = some v) (hset : set.Distinct)
    (hproper : ∀ p ∈ set.entries ++ entries, p.Proper) :
    n.Lists (entries.foldl EntrySet.add set) ↔
      v.IsCounted (set.entries ++ entries) n.options.parent n.options.context := by
  rw [← EntrySet.admits_foldl_add hset hproper]
  constructor
  · rintro ⟨u, hu, hadmits⟩
    cases hn.symm.trans hu
    exact hadmits
  · intro hadmits
    exact ⟨v, hn, hadmits⟩

end Node

namespace Schema

variable {s : Schema} {entries : List Param}

theorem exists_orElse_some {α : Type} (o : Option α) (a : α) : ∃ x, (o <|> some a) = some x := by
  cases o with
  | none => exact ⟨a, rfl⟩
  | some x => exact ⟨x, rfl⟩

/-- A schema that comes to allow or to deny some entries has the check of the list. For a
    defined value it passes or fails by the entries of the list and the new ones behind
    them, of which only those count whose place no later one takes. -/
theorem listed_entries_decide (h : s.Obtained) (hs : s.traits.Proper)
    (hentries : ∀ p ∈ entries, p.Proper) (locale : Locale) (v : Value) (raw : Option Value)
    (options : CallOptions) :
    (∃ x, (s.oneOf locale entries).traits.allowCheck = some x ∧
      (x.outcome (Node.subject ⟨s.oneOf locale entries, some v, raw, options⟩) = .pass ↔
        s.traits.allow.entries ++ entries = [] ∨
          v.IsCounted (s.traits.allow.entries ++ entries) options.parent options.context)) ∧
    ∃ y, (s.notOneOf locale entries).traits.denyCheck = some y ∧
      (y.outcome (Node.subject ⟨s.notOneOf locale entries, some v, raw, options⟩) = .pass ↔
        ¬ v.IsCounted (s.traits.deny.entries ++ entries) options.parent options.context) := by
  have henforced := h.enforced.here
  have hrepeatable := h.repeatable.here
  constructor
  · have hproper : ∀ p ∈ s.traits.allow.entries ++ entries, p.Proper :=
      List.forall_mem_append.mpr ⟨hs.1, hentries⟩
    have hlist := (henforced.allowing (locale .oneOf) entries).allow
    obtain ⟨x, hx⟩ := exists_orElse_some s.traits.allowCheck
      (.named "oneOf" (locale .oneOf) (.check .allowed))
    refine ⟨x, hx, ?_⟩
    rw [Node.outcome_allowed (hlist.enforces x hx).predicate_eq,
      ← EntrySet.isEmpty_foldl_add hproper,
      ← Node.lists_foldl_add_iff (n := ⟨s.oneOf locale entries, some v, raw, options⟩) rfl
        hrepeatable.allow hproper]
    exact or_iff_right (by simp)
  · have hproper : ∀ p ∈ s.traits.deny.entries ++ entries, p.Proper :=
      List.forall_mem_append.mpr ⟨hs.2, hentries⟩
    have hlist := (henforced.denying (locale .notOneOf) entries).deny
    obtain ⟨y, hy⟩ := exists_orElse_some s.traits.denyCheck
      (.named "notOneOf" (locale .notOneOf) (.check .notDenied))
    refine ⟨y, hy, ?_⟩
    rw [Node.outcome_notDenied (hlist.enforces y hy).predicate_eq,
      ← Node.lists_foldl_add_iff (n := ⟨s.notOneOf locale entries, some v, raw, options⟩) rfl
        hrepeatable.deny hproper]
    rfl

/-- Two references of one key: what the enclosing value has under `$a`, and what the
    context has under `a`. -/
def twiceA : List Param := [.ref (Reference.withPrefix "$a" "#"), .ref (Reference.ofKey "$a")]

/-- The value of the first reference is let through, though it was to be denied. That of
    the second one is not. -/
theorem listed_entries_decide_twiceA :
    ∃ y, ((Schema.fresh Locale.standard .mixed).notOneOf Locale.standard twiceA).traits.denyCheck =
        some y ∧
      (Reference.withPrefix "$a" "#").value (some (.obj [("$a", .int 1)]))
        (some (.obj [("a", .int 2)])) = some (.int 1) ∧
      ∀ v : Value, y.outcome (Node.subject
          ⟨(Schema.fresh Locale.standard .mixed).notOneOf Locale.standard twiceA, some v, some v,
            { CallOptions.none with
              parent := some (.obj [("$a", .int 1)])
              context := some (.obj [("a", .int 2)]) }⟩) = .pass ↔
        ¬ (Value.int 2).equals v = true := by
  have hbuild : Workshop.initial.build none (.plain .mixed) =
      .ok (Schema.fresh Locale.standard .mixed) := rfl
  have hbare : (Schema.fresh Locale.standard .mixed).Obtained :=
    .built Obtained.stored_initial hbuild
  have hlists : (Schema.fresh Locale.standard .mixed).traits.Proper := ⟨.empty, .empty⟩
  have hrefs : ∀ p ∈ twiceA, p.Proper := by simp [twiceA, Param.Proper]
  have hsibling : (Reference.withPrefix "$a" "#").value (some (.obj [("$a", .int 1)]))
      (some (.obj [("a", .int 2)])) = some (.int 1) := rfl
  have hcontext : (Reference.ofKey "$a").value (some (.obj [("$a", .int 1)]))
      (some (.obj [("a", .int 2)])) = some (.int 2) := rfl
  have hcounted (v : Value) : v.IsCounted twiceA (some (.obj [("$a", .int 1)]))
      (some (.obj [("a", .int 2)])) ↔ (Value.int 2).equals v = true := by
    constructor
    · rintro ⟨p, u, hcounts, hresolve, hequals⟩
      rcases (Param.countsIn_pair _ _ p).mp hcounts with ⟨rfl, hstays⟩ | rfl
      · exact absurd rfl hstays
      · cases hcontext.symm.trans hresolve
        exact hequals
    · intro hequals
      exact ⟨_, .int 2, (Param.countsIn_pair _ _ _).mpr (Or.inr rfl), hcontext, hequals⟩
  obtain ⟨-, y, hy, -⟩ := listed_entries_decide hbare hlists hrefs Locale.standard
    .null none .none
  refine ⟨y, hy, hsibling, fun v => ?_⟩
  obtain ⟨-, z, hz, hdecides⟩ := listed_entries_decide hbare hlists hrefs
    Locale.standard v (some v)
    { CallOptions.none with
      parent := some (.obj [("$a", .int 1)])
      context := some (.obj [("a", .int 2)]) }
  cases Option.some.inj (hy.symm.trans hz)
  rw [hdecides]
  exact not_congr (hcounted v)

end Schema

end Conform
