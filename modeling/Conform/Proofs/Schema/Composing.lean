/-
  Conform.Proofs.Schema.Composing

  Schemas by the operations that they come from, apart from recipes and values. Every
  schema that a program comes to is composed of bare schemas by edits, fields, elements,
  conditions and concatenations. A property that concatenation does not always keep
  holds of the schemas for which it does: those composed by concatenations of schemas
  that are in a relation.
-/

import Conform.Proofs.Schema.Obtained

namespace Conform

namespace Schema

/-- The schemas that are composed of bare ones, where any two schemas that are
    concatenated are in a relation. -/
inductive Composed (J : Schema → Schema → Prop) : Schema → Prop where
  | fresh (locale : Locale) {kind : Kind Schema} :
      kind.Bare → Composed J (Schema.fresh locale kind)
  | edited {s t : Schema} : Composed J s → Edited .all s t → Composed J t
  | shape {s t : Schema} {fields : List (String × Schema)} {excluded : List (String × String)} :
      Composed J s → (∀ f ∈ fields, Composed J f.2) → s.shape fields excluded = .ok t →
      Composed J t
  | of {s t element : Schema} :
      Composed J s → Composed J element → s.of element = .ok t → Composed J t
  | withoutElement {s t : Schema} : Composed J s → s.withoutElement = .ok t → Composed J t
  | when {s t : Schema} {refs : List Reference} {rule : Rule Schema Recipe Step} :
      Composed J s → (∀ u ∈ rule.joined, Composed J u) → s.when refs rule = .ok t → Composed J t
  | concat {a b c : Schema} :
      Composed J a → Composed J b → J a b → a.concat b = .ok c → Composed J c
  | clearConditions {s : Schema} : Composed J s → Composed J s.clearConditions
  | part {s t : Schema} : Composed J s → Nested t s → Composed J t

variable {J : Schema → Schema → Prop} {N : Schema → Prop} {s : Schema}

/-- All ways of making schemas compose them. -/
theorem composed_kept (hJ : ∀ a b, J a b) : Kept .all (Composed J) where
  fresh hbare _ := .fresh _ hbare
  edited := .edited
  shape hs hfields h := .shape hs.here (fun f hf => (hfields f hf).here) h
  of hs helement h := .of hs.here helement.here h
  withoutElement := .withoutElement
  when hs _ hjoined h := .when hs (fun u hu => (hjoined u hu).here) h
  concat ha hb h := .concat ha hb (hJ _ _) h
  clearConditions := .clearConditions
  pick _ _ := trivial
  rule _ _ := RecipeClass.rule_all _

/-- All that a program comes to is composed. -/
theorem Obtained.composed (h : s.Obtained) : s.Composed fun _ _ => True :=
  (h.everywhere (composed_kept fun _ _ => trivial)).here

/-- A property of nodes holds of all composed schemas if the ways of making schemas keep
    it, concatenations those of schemas in the relation. -/
theorem Composed.everywhere (hN : Refined .all N)
    (hconcat : ∀ {a b c : Schema}, a.Composed J → b.Composed J → a.Everywhere N →
      b.Everywhere N → J a b → a.concat b = .ok c → c.Everywhere N)
    (h : s.Composed J) : s.Everywhere N := by
  induction h with
  | fresh locale hbare => exact .fresh hbare (hN.fresh hbare fun _ _ => trivial)
  | edited _ he ih => exact ih.edited he (hN.edited ih.here he)
  | shape _ _ heq ih ihfields => exact ih.shape ihfields heq (hN.shape ih ihfields heq)
  | of _ _ heq ih ihelement => exact ih.of ihelement heq (hN.of ih ihelement heq)
  | withoutElement _ heq ih => exact ih.withoutElement heq (hN.withoutElement ih.here heq)
  | when _ _ heq ih ihjoined =>
      exact ih.when ihjoined heq (hN.when ih.here (RecipeClass.rule_all _) ihjoined heq)
  | concat ha hb hJ heq iha ihb => exact hconcat ha hb iha ihb hJ heq
  | clearConditions _ ih => exact ih.clearConditions (hN.clearConditions ih.here)
  | part _ hnested ih => exact ih.nested hnested

theorem Composed.wellMade (h : s.Composed J) : s.WellMade .all :=
  h.everywhere Regular.kept.toRefined fun _ _ ha hb _ heq =>
    Everywhere.concat Regular.concat ha hb heq

end Schema

end Conform
