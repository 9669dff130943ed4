import Schemata.Proofs.Tree

/-!
# Which declarations are accepted

Whether a declaration is accepted depends on nothing but the declaration: not on what was declared
before, and not on where nodes are. So the declarations that a draft accepts can be read off the
steps (`Edit.accepted_steps`), and with them what the document is laid out from
(`Document.lays_drafting_declarations`).
-/

namespace Schemata

variable {classes : Text.IdentifierClasses}

/-- Whether nothing is wrong with a declaration. -/
def Declaration.isAccepted [Text.IdentifierClasses] (x : Declaration) : Bool := x.violations.isEmpty

theorem Declaration.isAccepted_iff {x : Declaration} :
    x.isAccepted = true ↔ x.violations = [] :=
  List.isEmpty_iff

theorem Declaration.isAccepted_eq_false_iff {x : Declaration} :
    x.isAccepted = false ↔ ∃ e, x.firstViolation? = some e := by
  rw [← Bool.not_eq_true, isAccepted_iff, ← firstViolation?_eq_none_iff, ← Ne,
    Option.ne_none_iff_exists']

namespace Edit

/-- The declaration of a step, if it is one. -/
def declaration? : Edit → Option Declaration
  | .declare x => some x
  | .setRange .. => none

/-- The declarations among some steps, in order. -/
def declarations (edits : List Edit) : List Declaration := edits.filterMap declaration?

/-- **A draft accepts the declarations with which nothing is wrong**, whatever it has come to. -/
theorem accepted_steps (draft : Draft) (edits : List Edit) :
    accepted edits (draft.steps edits).2 = (declarations edits).filter (·.isAccepted) := by
  induction edits generalizing draft with
  | nil => rfl
  | cons e edits ih =>
    show accepted (e :: edits) ((draft.step e).2 :: ((draft.step e).1.steps edits).2) = _
    rw [accepted_cons, ih, declarations, declarations, List.filterMap_cons]
    cases e with
    | setRange n range => rfl
    | declare x =>
      rw [Draft.step]
      cases hx : x.firstViolation? with
      | some error =>
        have hrefused : x.isAccepted = false := Declaration.isAccepted_eq_false_iff.2 ⟨error, hx⟩
        rw [Draft.declare_of_violation hx, declaration?,
          List.filter_cons_of_neg (by simp [hrefused])]
        rfl
      | none =>
        have haccepted : x.isAccepted = true :=
          Declaration.isAccepted_iff.2 (Declaration.firstViolation?_eq_none_iff.1 hx)
        rw [Draft.declare_of_no_violation hx, declaration?, List.filter_cons_of_pos haccepted]
        rfl

theorem declarations_map_declare (xs : List Declaration) :
    declarations (xs.map .declare) = xs := by
  rw [declarations, List.filterMap_map]
  exact List.filterMap_some

end Edit

namespace Document

variable [Text.IdentifierClasses]

/-- A document is laid out from the declarations of its draft with which nothing is wrong. -/
theorem lays_drafting_declarations (file : FileId) (name : String) (edits : List Edit) :
    (drafting file name edits).Lays ((Edit.declarations edits).filter (·.isAccepted)) := by
  rw [← Edit.accepted_steps ⟨.blank file name, (Content.root name).extent + 1⟩]
  exact lays_drafting file name edits

/-- Declarations with which nothing is wrong are all laid out. -/
theorem lays_drafting_declare (file : FileId) (name : String) {xs : List Declaration}
    (hxs : ∀ x ∈ xs, x.violations = []) : (drafting file name (xs.map .declare)).Lays xs := by
  have hlays := lays_drafting_declarations file name (xs.map .declare)
  rwa [Edit.declarations_map_declare,
    List.filter_eq_self.2 fun x hx ↦ Declaration.isAccepted_iff.2 (hxs x hx)] at hlays

end Document

end Schemata
