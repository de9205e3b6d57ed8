/-
  Conform.Proofs.Schema.Enforcement

  The lists of a node and the checks that enforce them are set apart from each other:
  entries are moved and merged, and the checks are made, reworded and merged, each by
  itself. Still no list is without its check once it has an entry, and the checks stay
  the built-in ones under their own names, however a schema is obtained.
-/

import Conform.Proofs.EntrySet
import Conform.Proofs.Schema.Obtained

namespace Conform

-- ============================================================================
-- Checks
-- ============================================================================

/-- Whether a test is a built-in check under a name, with any message. -/
def Test.Enforces (name : String) (check : Check) (x : Test) : Prop :=
  ∃ message, x = .named name message (.check check)

namespace Test.Enforces

variable {name : String} {check : Check} {x : Test}

theorem name_eq (h : x.Enforces name check) : x.name = some name := by
  obtain ⟨message, rfl⟩ := h
  rfl

theorem predicate_eq (h : x.Enforces name check) : x.predicate = .check check := by
  obtain ⟨message, rfl⟩ := h
  rfl

theorem reword (h : x.Enforces name check) (named : String) (message : Message) :
    (Traits.reword named message x).Enforces name check := by
  obtain ⟨old, rfl⟩ := h
  obtain ⟨m, hm⟩ := Traits.reword_eq named message (.named name old (.check check))
  exact ⟨m, hm⟩

end Test.Enforces

/-- Whether a test, where there is one, is the check of a list, and is there once the list
    has entries. -/
structure EntrySet.EnforcedBy (set : EntrySet) (name : String) (check : Check)
    (o : Option Test) : Prop where
  present : set.isEmpty = false → o.isSome = true
  enforces : ∀ x ∈ o, x.Enforces name check

namespace EntrySet.EnforcedBy

variable {set other : EntrySet} {name : String} {check : Check} {o p : Option Test}

theorem empty (name : String) (check : Check) : EntrySet.empty.EnforcedBy name check none :=
  ⟨by simp [EntrySet.empty, isEmpty], by simp⟩

theorem isEmpty_of_none (h : set.EnforcedBy name check none) : set.isEmpty = true := by
  by_contra hsome
  exact absurd (h.present (by simpa using hsome)) (by simp)

/-- Any entries are enforced once the check is made. -/
theorem made (h : set.EnforcedBy name check o) (other : EntrySet) (message : Message) :
    other.EnforcedBy name check (o <|> some (.named name message (.check check))) := by
  cases o with
  | none => exact ⟨fun _ => rfl, fun x hx => ⟨message, (Option.some.inj hx).symm⟩⟩
  | some x => exact ⟨fun _ => rfl, h.enforces⟩

theorem removed (h : set.EnforcedBy name check o) (entries : List Param) :
    (entries.foldl remove set).EnforcedBy name check o :=
  ⟨fun hleft => h.present (isEmpty_foldl_remove hleft), h.enforces⟩

theorem reworded (h : set.EnforcedBy name check o) (named : String) (message : Message) :
    set.EnforcedBy name check (o.map (Traits.reword named message)) where
  present hset := by
    rw [Option.isSome_map]
    exact h.present hset
  enforces := by
    intro y hy
    obtain ⟨x, hx, rfl⟩ := Option.map_eq_some_iff.mp hy
    exact (h.enforces x hx).reword named message

/-- A union is enforced by the check of either side. -/
theorem union (hl : set.EnforcedBy name check o) (hr : other.EnforcedBy name check p) :
    (set.union other).EnforcedBy name check (p <|> o) := by
  cases p with
  | none =>
      -- without a check the right side has no entries, so those of the union are the left ones
      refine ⟨fun hunion => ?_, hl.enforces⟩
      rcases isEmpty_union hunion with hleft | hright
      · exact hl.present hleft
      · exact absurd (hr.present hright) (by simp)
  | some x => exact ⟨fun _ => rfl, hr.enforces⟩

end EntrySet.EnforcedBy

-- ============================================================================
-- Traits
-- ============================================================================

namespace Traits

variable {left right t u : Traits}

/-- Whether both lists are enforced by their checks. -/
structure Enforced (t : Traits) : Prop where
  allow : t.allow.EnforcedBy "oneOf" .allowed t.allowCheck
  deny : t.deny.EnforcedBy "notOneOf" .notDenied t.denyCheck

namespace Enforced

/-- Traits with the same lists and checks. -/
theorem of_eq (h : t.Enforced) (hallow : u.allow = t.allow) (hallowCheck : u.allowCheck = t.allowCheck)
    (hdeny : u.deny = t.deny) (hdenyCheck : u.denyCheck = t.denyCheck) : u.Enforced :=
  ⟨hallow ▸ hallowCheck ▸ h.allow, hdeny ▸ hdenyCheck ▸ h.deny⟩

theorem allowing (h : t.Enforced) (message : Message) (entries : List Param) :
    (t.allowing message entries).Enforced :=
  ⟨h.allow.made _ message, h.deny.removed entries⟩

theorem denying (h : t.Enforced) (message : Message) (entries : List Param) :
    (t.denying message entries).Enforced :=
  ⟨h.allow.removed entries, h.deny.made _ message⟩

theorem withMessage (h : t.Enforced) (name : String) (message : Message) :
    (t.withMessage name message).Enforced :=
  ⟨h.allow.reworded name message, h.deny.reworded name message⟩

theorem join (hl : left.Enforced) (hr : right.Enforced) : (left.join right).Enforced := by
  obtain ⟨-, hallowCheck, hdenyCheck⟩ := join_checks left right
  obtain ⟨hallow, hdeny⟩ := join_lists left right
  constructor
  case allow =>
    rw [hallow, hallowCheck]
    exact hl.allow.union hr.allow
  case deny =>
    rw [hdeny, hdenyCheck]
    exact hl.deny.union hr.deny

end Enforced

end Traits

-- ============================================================================
-- Schemas
-- ============================================================================

namespace Schema

variable {C : RecipeClass} {s t : Schema}

theorem enforced_of_edited (h : s.traits.Enforced) (he : Edited C s t) : t.traits.Enforced := by
  induction he with
  | refl => exact h
  | plain u _ hu ih => exact ih.of_eq hu.allow hu.allowCheck hu.deny hu.denyCheck
  | addTest _ _ _ ih => exact ih.of_eq rfl rfl rfl rfl
  | notRequired _ ih => exact ih.of_eq rfl rfl rfl rfl
  | withMessage name message _ ih => exact ih.withMessage name message
  | setTypeError message _ ih => exact ih.of_eq rfl rfl rfl rfl
  | oneOf locale entries _ ih => exact ih.allowing _ entries
  | notOneOf locale entries _ ih => exact ih.denying _ entries

/-- All ways of making schemas keep the lists enforced. -/
theorem enforced_kept : Kept .all fun s => s.traits.Enforced where
  toRefined := .of_traits (fun _ _ => ⟨.empty _ _, .empty _ _⟩) enforced_of_edited
    fun _ h => h.of_eq rfl rfl rfl rfl
  concat := by
    intro a b c ha hb h
    obtain ⟨kind, -, rfl⟩ := concat_eq h
    exact ha.join hb

/-- At every node of a schema the lists are enforced by their checks. -/
theorem Obtained.enforced (h : s.Obtained) : s.Everywhere fun node => node.traits.Enforced :=
  h.everywhere enforced_kept

end Schema

end Conform
