/-
  Conform.Proofs.Schema.Moving

  Values that are moved from a path to a key. What is moved is read along the path, but
  what is taken out is the key that is spelled like the path. Only where the path is the
  spelling of its own first key are the two the same, and the value is moved; behind any
  other path it stays where it was, and is found under the new key besides.
-/

import Conform.Proofs.Ascending
import Conform.Proofs.Path.Spelling
import Conform.Proofs.Validation.FieldConditions

namespace Conform

variable {source target key : String} {keep : Bool} {fields out : Dict Value} {moved : Value}

namespace Dict

/-- What is left beside a key that is set after another one was taken out. -/
theorem get?_insert_erase (h : key ≠ target) :
    Dict.get? (Dict.insert (Dict.erase fields source) target moved) key =
      if key = source then none else Dict.get? fields key := by
  rw [get?_insert_of_ne _ _ h]
  split
  · next hkey => rw [hkey, get?_erase_self]
  · next hkey => rw [get?_erase_of_ne _ hkey]

end Dict

namespace Transform

-- ============================================================================
-- Moves
-- ============================================================================

/-- What it is to move a value from a path to a key: it is found under the key, nothing is
    found at the path, and all keys but the two that are written are as they were. -/
structure Moved (source target : String) (fields out : Dict Value) (moved : Value) : Prop where
  there : Dict.get? out target = some moved
  gone : Path.get? (.obj out) (Path.parse source) = none
  others : ∀ key, key ≠ target → Path.firstKey? source ≠ some key →
    Dict.get? out key = Dict.get? fields key

/-- A move puts what is found at the path under the key. -/
theorem moveKey_of_found (hfound : Path.get? (.obj fields) (Path.parse source) = some moved)
    (raw : Value) (view : NodeView) :
    moveKey source target keep (some (.obj fields)) raw view =
      some (.obj (Dict.insert (if keep then fields else Dict.erase fields source) target
        moved)) := by
  simp only [moveKey, hfound]

/-- A path finds the same where its first key holds the same. -/
theorem get?_parse_congr (hsteps : Path.parse source ≠ [])
    (h : ∀ key, Path.firstKey? source = some key → Dict.get? out key = Dict.get? fields key) :
    Path.get? (.obj out) (Path.parse source) = Path.get? (.obj fields) (Path.parse source) := by
  rw [Path.firstKey?] at h
  cases hparse : Path.parse source with
  | nil => exact absurd hparse hsteps
  | cons first rest =>
      rw [hparse] at h
      exact Path.get?_obj_congr rest (h first.asKey rfl)

/-- The key that a path spells is taken out with the path. -/
theorem moved_of_spelled (h : Path.SpelledKey source) (htarget : source ≠ target) :
    Moved source target fields (Dict.insert (Dict.erase fields source) target moved) moved := by
  refine ⟨Dict.get?_insert_self _ _ _, ?_, fun key hkey hfirst => ?_⟩
  · rw [h.parse_eq, Path.get?, Path.follow]
    simp only [Segment.step, h.asRead]
    rw [Dict.get?_insert_erase htarget, if_pos rfl]
  · have hsource : key ≠ source := fun heq =>
      hfirst (heq.symm ▸ Path.firstKey?_eq_self.mpr h)
    rw [Dict.get?_insert_erase hkey, if_neg hsource]

/-- Any other path still finds what it found before. A path without steps finds the whole
    object, before and after. -/
theorem get?_of_not_spelled (h : ¬ Path.SpelledKey source)
    (htarget : Path.firstKey? source ≠ some target)
    (hfound : Path.get? (.obj fields) (Path.parse source) = some moved)
    (hout : out = Dict.insert (Dict.erase fields source) target moved) :
    Path.get? (.obj out) (Path.parse source) =
      some (if Path.parse source = [] then .obj out else moved) := by
  split
  · next hnil =>
      rw [hnil]
      rfl
  · next hsteps =>
      rw [← hfound]
      refine get?_parse_congr hsteps fun key hkey => ?_
      have hne : key ≠ target := fun heq => htarget (heq ▸ hkey)
      have hsource : key ≠ source := fun heq => h (Path.firstKey?_eq_self.mp (heq ▸ hkey))
      rw [hout, Dict.get?_insert_erase hne, if_neg hsource]

end Transform

namespace Schema

variable {s t : Schema}

/-- Moving the value that is found at a path to a key other than the first of the path.
    If the source is kept, the object is as before but for the key. If it is not, the key
    that is spelled like the path is taken out, and the value is moved exactly if the path
    names the key that it spells. Behind any other path it is found in both places. -/
theorem moveKey_moves_iff (h : s.moveKey source target keep = .ok t)
    (hfound : Path.get? (.obj fields) (Path.parse source) = some moved)
    (htarget : Path.firstKey? source ≠ some target) :
    ∃ f, t = s.addTransform f ∧ ∀ raw view, ∃ out,
      f (some (.obj fields)) raw view = some (.obj out) ∧
      Dict.get? out target = some moved ∧
      (keep = true → out = Dict.insert fields target moved) ∧
      (keep = false → out = Dict.insert (Dict.erase fields source) target moved ∧
        (Transform.Moved source target fields out moved ↔ Path.SpelledKey source) ∧
        (¬ Path.SpelledKey source → Path.get? (.obj out) (Path.parse source) =
          some (if Path.parse source = [] then .obj out else moved))) := by
  have ht : t = s.addTransform (Transform.moveKey source target keep) := by
    rw [moveKey, requireKind] at h
    split at h
    · exact (Except.ok.inj h).symm
    · exact absurd h (by simp [unsupported, bind, Except.bind])
  refine ⟨_, ht, fun raw view => ⟨_, Transform.moveKey_of_found hfound raw view,
    Dict.get?_insert_self _ _ _, fun hkeep => by rw [if_pos hkeep], fun hkeep => ?_⟩⟩
  obtain rfl := hkeep
  have hstays (hspelled : ¬ Path.SpelledKey source) :=
    Transform.get?_of_not_spelled hspelled htarget hfound rfl
  refine ⟨rfl, ⟨fun hmoved => ?_, fun hspelled => ?_⟩, hstays⟩
  · by_contra hspelled
    exact absurd (hmoved.gone.symm.trans (hstays hspelled)) (by simp)
  · have hne : source ≠ target := fun heq =>
      htarget (heq ▸ Path.firstKey?_eq_self.mpr hspelled)
    exact Transform.moved_of_spelled hspelled hne

/-- A value below a field is found in both places, one at a key of the object is moved. -/
theorem moveKey_moves_iff_nested :
    ∃ (s t u : Schema) (f g : Transform), s.moveKey "a.b" "t" false = .ok t ∧
      t = s.addTransform f ∧ s.moveKey "prop" "t" false = .ok u ∧ u = s.addTransform g ∧
      ∀ raw view,
        (∃ out, f (some (.obj [("a", .obj [("b", .int 1)])])) raw view = some (.obj out) ∧
          Dict.get? out "t" = some (.int 1) ∧
          Path.get? (.obj out) (Path.parse "a.b") = some (.int 1)) ∧
        ∃ out, g (some (.obj [("prop", .int 1)])) raw view = some (.obj out) ∧
          Transform.Moved "prop" "t" [("prop", .int 1)] out (.int 1) := by
  obtain ⟨s, t, u, ht, hu⟩ : ∃ (s t u : Schema), s.moveKey "a.b" "t" false = .ok t ∧
      s.moveKey "prop" "t" false = .ok u :=
    ⟨.fresh Workshop.initial.locale (.object .empty), _, _, rfl, rfl⟩
  have hbelow : Path.get? (.obj [("a", .obj [("b", .int 1)])]) (Path.parse "a.b") =
      some (.int 1) := rfl
  have hhere : Path.get? (.obj [("prop", .int 1)]) (Path.parse "prop") = some (.int 1) := rfl
  obtain ⟨f, hf, hnested⟩ := moveKey_moves_iff ht hbelow (by decide)
  obtain ⟨g, hg, hflat⟩ := moveKey_moves_iff hu hhere (by decide)
  refine ⟨s, t, u, f, g, ht, hf, hu, hg, fun raw view => ⟨?_, ?_⟩⟩
  · obtain ⟨out, hout, hthere, -, hbare⟩ := hnested raw view
    obtain ⟨-, -, hstays⟩ := hbare rfl
    exact ⟨out, hout, hthere, hstays (by decide)⟩
  · obtain ⟨out, hout, -, -, hbare⟩ := hflat raw view
    obtain ⟨-, hmoved, -⟩ := hbare rfl
    exact ⟨out, hout, hmoved.mpr (by decide)⟩

end Schema

end Conform
