import SqlComposer.Text.Utf8

/-!
# What a cut text keeps

A text that is longer in bytes than the limit is cut.  It keeps leading characters that
fit the limit, and as many of them as possible (`Text.IsCut`): the search for the cut
passes over a boundary only when that boundary lies beyond the limit.  Since the next
character has at most four bytes, at most three bytes of the limit are left over.
-/

namespace SqlComposer

set_option autoImplicit false

namespace Text

/-! ## Lengths of parts -/

/-- Of two runs of leading characters the one with fewer bytes begins the other. -/
theorem prefix_of_byteLength_le {first second text : Text} (ofFirst : first <+: text)
    (ofSecond : second <+: text) (shorter : byteLength first ≤ byteLength second) :
    first <+: second := by
  rcases List.prefix_or_prefix_of_prefix ofFirst ofSecond with before | behind
  · exact before
  · obtain ⟨rest, rfl⟩ := behind
    have nothing : rest = [] := by
      cases rest with
      | nil => rfl
      | cons next others =>
          have size := next.utf8Size_pos
          rw [byteLength_append, byteLength] at shorter
          omega
    exact ⟨[], by rw [nothing, List.append_nil, List.append_nil]⟩

/-! ## Cuts -/

/-- A text is cut to its longest run of leading characters that fits the limit in bytes, which
leaves at most three bytes of the limit over. -/
structure IsCut (limit : Nat) (text kept : Text) : Prop where
  start : kept <+: text
  fits : byteLength kept ≤ limit
  longest : ∀ other, other <+: text → byteLength other ≤ limit → other <+: kept
  close : limit ≤ byteLength kept + 3

/-- A cut that keeps as much as fits comes as close to the limit as the next character lets it. -/
theorem IsCut.of_longest {limit : Nat} {text kept : Text} (long : limit < byteLength text)
    (start : kept <+: text) (fits : byteLength kept ≤ limit)
    (longest : ∀ other, other <+: text → byteLength other ≤ limit → other <+: kept) :
    IsCut limit text kept := by
  refine ⟨start, fits, longest, ?_⟩
  obtain ⟨rest, rfl⟩ := start
  have nonempty : rest ≠ [] := by
    rintro rfl
    rw [List.append_nil] at long
    omega
  obtain ⟨next, others, rfl⟩ := List.exists_cons_of_ne_nil nonempty
  have further : kept ++ [next] <+: kept ++ next :: others :=
    (List.prefix_append_right_inj kept).mpr ⟨others, rfl⟩
  have ofFurther : byteLength (kept ++ [next]) = byteLength kept + next.utf8Size :=
    byteLength_append kept [next]
  rcases Nat.lt_or_ge limit (byteLength (kept ++ [next])) with beyond | within
  · have size := next.utf8Size_le_four
    omega
  · have length := (longest _ further within).length_le
    rw [List.length_append] at length
    exact absurd length (Nat.not_succ_le_self _)

/-- A text that fits the limit is shown as it is. -/
theorem truncated_of_fits {limit : Nat} {text : Text} (fits : byteLength text ≤ limit) :
    truncated limit text = text :=
  Option.get_of_eq_some _ (if_pos fits)

/-- For any other text the search ends at the length of its cut, which is shown with three dots. -/
theorem exists_isCut {limit : Nat} {text : Text} (long : limit < byteLength text) :
    ∃ kept, IsCut limit text kept ∧
      lastBoundary? (bytes text) limit = some (byteLength kept) ∧
        truncated limit text = kept ++ "..." := by
  obtain ⟨kept, start, found, cut⟩ := exists_truncated? long
  obtain ⟨stop, foundAt, fits, _, last⟩ := exists_lastBoundary? (bytes text) limit
  obtain rfl : byteLength kept = stop := Option.some.inj (found.symm.trans foundAt)
  refine ⟨kept, IsCut.of_longest long start fits fun other ofText within => ?_, found,
    Option.get_of_eq_some _ cut⟩
  have boundary : isBoundary (bytes text) (byteLength other) :=
    isBoundary_iff.mpr ⟨other, ofText, rfl⟩
  exact prefix_of_byteLength_le ofText start (last _ boundary within)

/-- Under a limit of zero only the dots are left. -/
example : truncated 0 "\u00E9" = "...".toList := by decide

end Text

end SqlComposer
