import Mathlib.Data.List.Forall2
import Mathlib.Data.List.Perm.Basic
import SqlComposer.Error

/-!
# Outcomes of two runs

Rendering a query either fails with an error or returns a text.  To compare two
renderings, their outcomes are matched: both are errors of one kind, or both are
values that stand in a relation (`Matched`).  What led to a value is read off
backwards, step by step (`bind_eq_ok`), and an error of a traversal belongs to its
first step that fails (`mapM_eq_error`).

Matching goes along with how renderings are put together.  It passes through a
sequence of two computations (`Matched.bind`) and through a traversal of two
lists whose members correspond (`Matched.mapM`), so the renderings of a whole
match as soon as the renderings of its parts do.  A statement about one run is
the case in which both runs are the same (`Matched.related_of_ok`).
-/

namespace SqlComposer

set_option autoImplicit false

variable {α β γ δ : Type}

/-! ## What leads to a value -/

/-- An outcome is an error exactly when it has no value. -/
theorem exists_error_iff {ε : Type} {outcome : Except ε α} :
    (∃ fault, outcome = .error fault) ↔ ¬ ∃ value, outcome = .ok value := by
  cases outcome <;> simp

/-- A sequence of two computations has a value exactly when both have one. -/
theorem bind_eq_ok {ε : Type} {first : Except ε α} {next : α → Except ε β} {result : β} :
    first >>= next = .ok result ↔ ∃ value, first = .ok value ∧ next value = .ok result := by
  cases first <;> simp [bind, Except.bind]

/-- A sequence of two computations fails where the first or the second one does. -/
theorem bind_eq_error {ε : Type} {first : Except ε α} {next : α → Except ε β} {fault : ε} :
    first >>= next = .error fault ↔
      first = .error fault ∨ ∃ value, first = .ok value ∧ next value = .error fault := by
  cases first <;> simp [bind, Except.bind]

/-- Another wording of the errors does not change the value. -/
theorem mapError_eq_ok {ε ε' : Type} {outcome : Except ε α} {reword : ε → ε'} {result : α} :
    outcome.mapError reword = .ok result ↔ outcome = .ok result := by
  cases outcome <;> simp [Except.mapError]

/-- A traversal that undoes each item of a written list gives back the list. -/
theorem mapM_map_eq_ok {ε : Type} {write : α → β} {read : β → Except ε α} {items : List α}
    (each : ∀ item ∈ items, read (write item) = .ok item) :
    (items.map write).mapM read = .ok items := by
  induction items with
  | nil => rfl
  | cons first rest ih =>
      have others := ih fun item member => each item (List.mem_cons_of_mem _ member)
      rw [List.map_cons, List.mapM_cons, each first List.mem_cons_self, others]
      rfl

/-- A traversal has the values that its steps have, in order. -/
theorem mapM_eq_ok {ε : Type} {step : α → Except ε β} {items : List α} {results : List β} :
    items.mapM step = .ok results ↔
      List.Forall₂ (fun item result => step item = .ok result) items results := by
  induction items generalizing results with
  | nil =>
      rw [List.mapM_nil, List.forall₂_nil_left_iff]
      exact ⟨fun same => (Except.ok.inj same).symm, fun same => same ▸ rfl⟩
  | cons first rest ih =>
      rw [List.mapM_cons, List.forall₂_cons_left_iff]
      constructor
      · intro ok
        obtain ⟨value, head, ok⟩ := bind_eq_ok.mp ok
        obtain ⟨values, others, ok⟩ := bind_eq_ok.mp ok
        exact ⟨value, values, head, ih.mp others, (Except.ok.inj ok).symm⟩
      · rintro ⟨value, values, head, others, rfl⟩
        rw [head, ih.mpr others]
        rfl

/-- Some list corresponds to another when every member has something that corresponds to it. -/
theorem exists_forall₂_iff {related : α → β → Prop} {items : List α} :
    (∃ results, List.Forall₂ related items results) ↔
      ∀ item ∈ items, ∃ result, related item result := by
  induction items with
  | nil => exact ⟨fun _ => nofun, fun _ => ⟨[], .nil⟩⟩
  | cons first rest ih =>
      rw [List.forall_mem_cons, ← ih]
      constructor
      · rintro ⟨_, _ | ⟨head, tail⟩⟩
        exact ⟨⟨_, head⟩, _, tail⟩
      · rintro ⟨⟨_, head⟩, _, tail⟩
        exact ⟨_, .cons head tail⟩

/-- A traversal has a value exactly when each of its steps has one. -/
theorem mapM_isOk_iff {ε : Type} {step : α → Except ε β} {items : List α} :
    (∃ results, items.mapM step = .ok results) ↔
      ∀ item ∈ items, ∃ result, step item = .ok result := by
  simp only [mapM_eq_ok, exists_forall₂_iff]

/-- Checks are all passed exactly when each of them is. -/
theorem forM_eq_ok {ε : Type} {check : α → Except ε Unit} {items : List α} :
    items.forM check = .ok () ↔ ∀ item ∈ items, check item = .ok () := by
  induction items with
  | nil => exact ⟨fun _ => nofun, fun _ => rfl⟩
  | cons first rest ih =>
      rw [List.forall_mem_cons, ← ih]
      change (check first >>= fun _ => rest.forM check) = .ok () ↔ _
      rw [bind_eq_ok]
      exact ⟨fun ⟨⟨⟩, both⟩ => both, fun both => ⟨(), both⟩⟩

/-- A traversal fails with the error of the first of its steps that fails. -/
theorem mapM_eq_error {ε : Type} {step : α → Except ε β} {items : List α} {fault : ε} :
    items.mapM step = .error fault ↔
      ∃ before item behind, items = before ++ item :: behind ∧
        (∀ earlier ∈ before, ∃ result, step earlier = .ok result) ∧ step item = .error fault := by
  constructor
  · intro failed
    induction items with
    | nil => cases failed
    | cons first rest ih =>
        rw [List.mapM_cons] at failed
        rcases bind_eq_error.mp failed with here | ⟨value, head, failed⟩
        · exact ⟨[], first, rest, rfl, nofun, here⟩
        · rcases bind_eq_error.mp failed with later | ⟨values, _, failed⟩
          · obtain ⟨before, item, behind, rfl, earlier, here⟩ := ih later
            exact ⟨first :: before, item, behind, rfl,
              List.forall_mem_cons.mpr ⟨⟨value, head⟩, earlier⟩, here⟩
          · cases failed
  · rintro ⟨before, item, behind, rfl, earlier, here⟩
    induction before with
    | nil =>
        rw [List.nil_append, List.mapM_cons, here]
        rfl
    | cons first rest ih =>
        obtain ⟨⟨value, head⟩, others⟩ := List.forall_mem_cons.mp earlier
        rw [List.cons_append, List.mapM_cons, head]
        exact bind_eq_error.mpr (.inr ⟨value, rfl, bind_eq_error.mpr (.inl (ih others))⟩)

/-- A traversal fails only with the error of one of its steps. -/
theorem exists_of_mapM_eq_error {ε : Type} {step : α → Except ε β} {items : List α} {fault : ε}
    (failed : items.mapM step = .error fault) : ∃ item ∈ items, step item = .error fault := by
  obtain ⟨before, item, behind, rfl, _, here⟩ := mapM_eq_error.mp failed
  exact ⟨item, List.mem_append_right _ List.mem_cons_self, here⟩

/-! ## Corresponding lists -/

/-- A member of the second of two corresponding lists belongs to one of the first. -/
theorem exists_mem_of_forall₂ {related : α → β → Prop} {firsts : List α} {seconds : List β}
    (pairs : List.Forall₂ related firsts seconds) {second : β} (member : second ∈ seconds) :
    ∃ first ∈ firsts, related first second := by
  induction pairs with
  | nil => cases member
  | cons together _ ih =>
      rcases List.mem_cons.mp member with rfl | later
      · exact ⟨_, List.mem_cons_self, together⟩
      · obtain ⟨first, inRest, related⟩ := ih later
        exact ⟨first, List.mem_cons_of_mem _ inRest, related⟩

/-- Two lists that correspond to a third correspond to each other. -/
theorem forall₂_through {related : α → β → Prop} {other : γ → β → Prop} {firsts : List α}
    {seconds : List β} {thirds : List γ} (pairs : List.Forall₂ related firsts seconds)
    (others : List.Forall₂ other thirds seconds) :
    List.Forall₂ (fun first third => ∃ second, related first second ∧ other third second)
      firsts thirds := by
  induction pairs generalizing thirds with
  | nil =>
      cases others
      exact .nil
  | cons together _ ih =>
      cases others with
      | cons beside rest => exact .cons ⟨_, together, beside⟩ (ih rest)

/-! ## Matched outcomes -/

/-- Both outcomes are errors of one kind, or both are values in a relation. -/
inductive Matched (related : α → β → Prop) : Except Error α → Except Error β → Prop
  | ok {first : α} {second : β} (together : related first second) :
      Matched related (.ok first) (.ok second)
  | error {first second : Error} (sameKind : first.kind = second.kind) :
      Matched related (.error first) (.error second)

namespace Matched

/-- An outcome matches itself when its value, if it has one, is related to itself. -/
theorem self {related : α → α → Prop} {outcome : Except Error α}
    (onValue : ∀ value, outcome = .ok value → related value value) :
    Matched related outcome outcome := by
  cases outcome with
  | ok value => exact .ok (onValue value rfl)
  | error fault => exact .error rfl

/-- Matched outcomes are followed by matched continuations. -/
theorem bind {related : α → β → Prop} {result : γ → δ → Prop}
    {first : Except Error α} {second : Except Error β}
    {firstNext : α → Except Error γ} {secondNext : β → Except Error δ}
    (matched : Matched related first second)
    (next : ∀ a b, related a b → Matched result (firstNext a) (secondNext b)) :
    Matched result (first >>= firstNext) (second >>= secondNext) := by
  cases matched with
  | ok together => exact next _ _ together
  | error sameKind => exact .error sameKind

/-- Traversals of corresponding lists match when they match member by member. -/
theorem mapM {related : α → β → Prop} {result : γ → δ → Prop}
    {firstStep : α → Except Error γ} {secondStep : β → Except Error δ}
    {firsts : List α} {seconds : List β} (pairs : List.Forall₂ related firsts seconds)
    (step : ∀ a ∈ firsts, ∀ b, related a b → Matched result (firstStep a) (secondStep b)) :
    Matched (List.Forall₂ result) (firsts.mapM firstStep) (seconds.mapM secondStep) := by
  induction pairs with
  | nil =>
      rw [List.mapM_nil, List.mapM_nil]
      exact .ok .nil
  | cons head _ ih =>
      rw [List.mapM_cons, List.mapM_cons]
      refine (step _ List.mem_cons_self _ head).bind fun a b together => ?_
      refine (ih fun a member => step a (List.mem_cons_of_mem _ member)).bind fun as bs rest => ?_
      exact .ok (.cons together rest)

/-- A traversal matches itself when each of its steps does. -/
theorem mapM_self {result : γ → γ → Prop} {step : α → Except Error γ} {items : List α}
    (each : ∀ item ∈ items, Matched result (step item) (step item)) :
    Matched (List.Forall₂ result) (items.mapM step) (items.mapM step) := by
  have pairs : List.Forall₂ Eq items items := List.forall₂_same.mpr fun _ _ => rfl
  refine mapM pairs fun a member b same => ?_
  subst same
  exact each a member

/-- An outcome matches itself. -/
theorem refl (outcome : Except Error α) : Matched Eq outcome outcome :=
  self fun _ _ => rfl

/-- Equal values, or errors of one kind, are followed alike by one continuation. -/
theorem followed {first second : Except Error α} (matched : Matched Eq first second)
    (next : α → Except Error γ) : Matched Eq (first >>= next) (second >>= next) := by
  refine matched.bind fun a b same => ?_
  rw [same]
  exact refl (next b)

/-- What matches the one of two outcomes with the same value matches the other. -/
theorem trans_eq {related : α → β → Prop} {first second : Except Error α}
    {third : Except Error β} (same : Matched Eq first second)
    (matched : Matched related second third) : Matched related first third := by
  cases same with
  | ok equal => exact equal ▸ matched
  | error sameKind =>
      cases matched with
      | error otherKind => exact .error (sameKind.trans otherKind)

/-- Traversals of corresponding lists have the same values when their steps do. -/
theorem mapM_eq {related : α → β → Prop} {firstStep : α → Except Error γ}
    {secondStep : β → Except Error γ} {firsts : List α} {seconds : List β}
    (pairs : List.Forall₂ related firsts seconds)
    (step : ∀ a b, related a b → Matched Eq (firstStep a) (secondStep b)) :
    Matched Eq (firsts.mapM firstStep) (seconds.mapM secondStep) := by
  have matched := mapM pairs fun a _ b => step a b
  rwa [List.forall₂_eq_eq_eq] at matched

/-- Traversals of one list in two orders match when all faults of a step are of one kind. -/
theorem mapM_perm {step : α → Except Error β} {kind : Error.Kind}
    (faults : ∀ item fault, step item = .error fault → fault.kind = kind)
    {first second : List α} (order : first.Perm second) :
    Matched List.Perm (first.mapM step) (second.mapM step) := by
  have ofKind : ∀ {items : List α} {fault : Error}, items.mapM step = .error fault →
      fault.kind = kind := fun failed =>
    have ⟨item, _, here⟩ := exists_of_mapM_eq_error failed
    faults item _ here
  -- The values in one order can be put in the other.
  have reordered : ∀ {items others : List α} {results : List β}, others.Perm items →
      items.mapM step = .ok results →
      ∃ values, others.mapM step = .ok values ∧ values.Perm results := fun order ok =>
    have ⟨values, pairs, values_order⟩ := List.perm_comp_forall₂ order (mapM_eq_ok.mp ok)
    ⟨values, mapM_eq_ok.mpr pairs, values_order⟩
  cases firstOutcome : first.mapM step with
  | ok results =>
      obtain ⟨values, ok, values_order⟩ := reordered order.symm firstOutcome
      rw [ok]
      exact .ok values_order.symm
  | error fault =>
      cases secondOutcome : second.mapM step with
      | ok results =>
          obtain ⟨values, ok, _⟩ := reordered order secondOutcome
          rw [ok] at firstOutcome
          cases firstOutcome
      | error other => exact .error ((ofKind firstOutcome).trans (ofKind secondOutcome).symm)

/-- What is known of the value of the first outcome holds along with the relation. -/
theorem and_of_ok {related : α → β → Prop} {holds : α → Prop} {first : Except Error α}
    {second : Except Error β} (matched : Matched related first second)
    (onValue : ∀ value, first = .ok value → holds value) :
    Matched (fun a b => related a b ∧ holds a) first second := by
  cases matched with
  | ok together => exact .ok ⟨together, onValue _ rfl⟩
  | error sameKind => exact .error sameKind

/-- The values of matched outcomes are related. -/
theorem related_of_ok {related : α → β → Prop} {first : α} {second : β}
    (matched : Matched related (.ok first) (.ok second)) : related first second := by
  cases matched with
  | ok together => exact together

end Matched

end SqlComposer
