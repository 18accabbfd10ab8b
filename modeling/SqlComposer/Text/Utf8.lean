import SqlComposer.Text.Basic

/-!
# Lengths in bytes

The length of a text in bytes is the length of its UTF-8 encoding, and SQL in the log is
limited in bytes.  A text that is too long is cut at the limit, or in front of it when
the limit falls inside of a character: from the limit downwards the search goes to the
last boundary between characters (`lastBoundary?`).  A boundary is told by the byte
behind it, which must not continue a character (`isBoundary`).

Two things could go wrong here.  A search could go on below zero, and a text could be cut
through a character.  Neither happens: there is a boundary at zero, and the boundaries are
the lengths of the runs of leading characters (`isBoundary_iff`).  So every text has its
cut (`exists_truncated?`), which `truncated` returns.

A part of a text can also be taken by its two places in the bytes (`slice?`).  A reader that
looks at bytes only may look for ASCII characters: a byte of a character is that of an ASCII
character only when it is that character itself (`octet_eq_iff_of_ascii`).
-/

namespace SqlComposer

set_option autoImplicit false

namespace Text

/-! ## Bytes -/

def bytes (text : Text) : List UInt8 :=
  text.flatMap String.utf8EncodeChar

def byteLength : Text → Nat
  | [] => 0
  | character :: rest => character.utf8Size + byteLength rest

theorem length_bytes (text : Text) : (bytes text).length = byteLength text := by
  induction text with
  | nil => rfl
  | cons character rest ih =>
      unfold bytes at ih ⊢
      rw [List.flatMap_cons, List.length_append, String.length_utf8EncodeChar, ih, byteLength]

theorem bytes_append (first second : Text) :
    bytes (first ++ second) = bytes first ++ bytes second :=
  List.flatMap_append

theorem byteLength_append (first second : Text) :
    byteLength (first ++ second) = byteLength first + byteLength second := by
  rw [← length_bytes, bytes_append, List.length_append, length_bytes, length_bytes]

/-- Behind the bytes of what stands in front come those of the character. -/
theorem getElem?_bytes {front rest : Text} {character : Char} {offset : Nat}
    (inside : offset < character.utf8Size) :
    (bytes (front ++ character :: rest))[byteLength front + offset]? =
      (String.utf8EncodeChar character)[offset]? := by
  have whole : bytes (character :: rest) = String.utf8EncodeChar character ++ bytes rest :=
    List.flatMap_cons
  have fits : offset < (String.utf8EncodeChar character).length := by
    rwa [String.length_utf8EncodeChar]
  rw [bytes_append, ← length_bytes, List.getElem?_append_right (Nat.le_add_right _ _),
    Nat.add_sub_cancel_left, whole, List.getElem?_append_left fits]

/-- Whether a byte continues a character, as all bytes of its encoding but the first do. -/
def continues (octet : UInt8) : Bool :=
  0x80 ≤ octet && octet < 0xC0

theorem code_lt (character : Char) : character.val.toNat < 0x110000 := by
  rcases character.valid with low | high
  · omega
  · omega

theorem continues_ofNat {code : Nat} (small : code < 256) :
    continues (UInt8.ofNat code) ↔ 0x80 ≤ code ∧ code < 0xC0 := by
  rw [continues, Bool.and_eq_true, decide_eq_true_iff, decide_eq_true_iff,
    UInt8.le_iff_toNat_le, UInt8.lt_iff_toNat_lt, UInt8.toNat_ofNat', Nat.mod_eq_of_lt small]
  rfl

/-- The bytes of a character by their place: those behind the first one are in the range of bytes
that continue a character, and no byte of a character outside of ASCII is in ASCII. -/
theorem exists_value_of_encoded {character : Char} {index : Nat} {octet : UInt8}
    (here : (String.utf8EncodeChar character)[index]? = some octet) :
    ∃ value, octet = UInt8.ofNat value ∧ value < 256 ∧
      (0x80 ≤ value ∧ value < 0xC0 ↔ index ≠ 0) ∧
      (127 < character.val.toNat → 0x80 ≤ value) := by
  have bound := code_lt character
  unfold String.utf8EncodeChar at here
  generalize character.val.toNat = code at bound here
  dsimp only at here
  -- One goal for each length, and in it one for each byte.
  repeat' split at here
  all_goals
    rcases index with _ | _ | _ | _ | index <;>
      simp only [List.getElem?_cons_zero, List.getElem?_cons_succ, List.getElem?_nil,
        Option.some.injEq, reduceCtorEq] at here <;>
      exact ⟨_, here.symm, by omega, by omega, by omega⟩

/-- In the encoding of a character the first byte begins it and all others continue it. -/
theorem continues_iff_ne_zero {character : Char} {index : Nat} {octet : UInt8}
    (here : (String.utf8EncodeChar character)[index]? = some octet) :
    continues octet ↔ index ≠ 0 := by
  obtain ⟨value, rfl, small, later, _⟩ := exists_value_of_encoded here
  exact (continues_ofNat small).trans later

/-- A byte of a character outside of ASCII is outside of ASCII. -/
theorem le_toNat_of_encoded {character : Char} {offset : Nat} {octet : UInt8}
    (large : ¬ character.utf8Size = 1)
    (here : (String.utf8EncodeChar character)[offset]? = some octet) : 128 ≤ octet.toNat := by
  rw [Char.utf8Size_eq_one_iff, UInt32.le_iff_toNat_le] at large
  obtain ⟨value, rfl, small, _, outside⟩ := exists_value_of_encoded here
  rw [UInt8.toNat_ofNat', Nat.mod_eq_of_lt small]
  exact outside (Nat.not_le.mp large)

/-- A byte of a character is that of an ASCII character only when the two are the same. -/
theorem octet_eq_iff_of_ascii {character mark : Char} {offset : Nat} {octet : UInt8}
    (ascii : mark.utf8Size = 1)
    (here : (String.utf8EncodeChar character)[offset]? = some octet) :
    octet = mark.toUInt8 ↔ character = mark := by
  have small : mark.val.toNat ≤ 127 := by
    rwa [Char.utf8Size_eq_one_iff, UInt32.le_iff_toNat_le] at ascii
  have value : mark.toUInt8.toNat = mark.val.toNat := by
    rw [Char.toUInt8, UInt32.toNat_toUInt8]
    omega
  by_cases single : character.utf8Size = 1
  · rw [String.utf8EncodeChar_eq_singleton single, List.getElem?_singleton] at here
    obtain rfl := Option.some.inj (Option.ite_none_right_eq_some.mp here).2
    rw [Char.utf8Size_eq_one_iff, UInt32.le_iff_toNat_le] at single
    constructor
    · intro same
      have codes : character.val.toNat % 256 = mark.val.toNat := by
        rw [← value, ← same, UInt32.toNat_toUInt8]
      rw [Nat.mod_eq_of_lt (Nat.lt_of_le_of_lt single (by decide))] at codes
      exact Char.ext (UInt32.toNat_inj.mp codes)
    · rintro rfl
      rfl
  · refine iff_of_false (fun same => ?_) (fun same => single (same ▸ ascii))
    have large := le_toNat_of_encoded single here
    rw [same, value] at large
    omega

/-! ## Boundaries -/

/-- Whether bytes can be cut at an index without cutting a character: in front of all of them,
behind all of them, or in front of a byte that continues no character. -/
def isBoundary (octets : List UInt8) (index : Nat) : Bool :=
  index == 0 ||
    match octets[index]? with
    | some octet => !continues octet
    | none => index == octets.length

theorem isBoundary_zero (octets : List UInt8) : isBoundary octets 0 := rfl

/-- A boundary is in front of a character or, counted from its end, one of the characters behind. -/
theorem isBoundary_cons {character : Char} {rest : Text} {index : Nat} :
    isBoundary (bytes (character :: rest)) index ↔
      index = 0 ∨ character.utf8Size ≤ index ∧
        isBoundary (bytes rest) (index - character.utf8Size) := by
  have size := String.length_utf8EncodeChar character
  have positive := character.utf8Size_pos
  have whole : bytes (character :: rest) = String.utf8EncodeChar character ++ bytes rest :=
    List.flatMap_cons
  by_cases start : index = 0
  · simp [start, isBoundary]
  by_cases inside : index < character.utf8Size
  · have here : index < (String.utf8EncodeChar character).length := size ▸ inside
    have continued : continues (String.utf8EncodeChar character)[index] :=
      (continues_iff_ne_zero (List.getElem?_eq_getElem here)).mpr start
    rw [isBoundary, whole, List.getElem?_append_left here, List.getElem?_eq_getElem here]
    simp [start, continued, Nat.not_le.mpr inside]
  · have behind := Nat.not_lt.mp inside
    rw [isBoundary, isBoundary, whole, List.getElem?_append_right (size ▸ behind), size,
      List.length_append, size]
    by_cases seam : index = character.utf8Size
    · subst seam
      -- At the end of the character stands the first byte of another one, or nothing.
      cases rest with
      | nil => simp [bytes]
      | cons next others =>
          have first : 0 < (String.utf8EncodeChar next).length :=
            String.length_utf8EncodeChar next ▸ next.utf8Size_pos
          have begins : continues (String.utf8EncodeChar next)[0] = false :=
            Bool.eq_false_iff.mpr fun continued =>
              (continues_iff_ne_zero (List.getElem?_eq_getElem first)).mp continued rfl
          have split : bytes (next :: others) = String.utf8EncodeChar next ++ bytes others :=
            List.flatMap_cons
          rw [Nat.sub_self, split, List.getElem?_append_left first, List.getElem?_eq_getElem first]
          simp [begins]
    · have apart : index - character.utf8Size ≠ 0 := by omega
      have lengths : (index == character.utf8Size + (bytes rest).length) =
          (index - character.utf8Size == (bytes rest).length) := by
        rw [Bool.eq_iff_iff, beq_iff_eq, beq_iff_eq]
        omega
      rw [lengths]
      simp [start, behind, apart]

/-- The boundaries of a text are the lengths of its runs of leading characters. -/
theorem isBoundary_iff {text : Text} {index : Nat} :
    isBoundary (bytes text) index ↔ ∃ kept, kept <+: text ∧ byteLength kept = index := by
  induction text generalizing index with
  | nil =>
      have onlyZero : isBoundary (bytes []) index ↔ index = 0 := by simp [isBoundary, bytes]
      rw [onlyZero]
      constructor
      · rintro rfl
        exact ⟨[], List.prefix_refl [], rfl⟩
      · rintro ⟨kept, before, rfl⟩
        rw [List.prefix_nil.mp before]
        rfl
  | cons character rest ih =>
      rw [isBoundary_cons, ih]
      constructor
      · rintro (rfl | ⟨fits, kept, before, length⟩)
        · exact ⟨[], List.nil_prefix, rfl⟩
        · refine ⟨character :: kept, List.cons_prefix_cons.mpr ⟨rfl, before⟩, ?_⟩
          rw [byteLength]
          omega
      · rintro ⟨kept, before, rfl⟩
        cases kept with
        | nil => exact .inl rfl
        | cons first others =>
            obtain ⟨rfl, behind⟩ := List.cons_prefix_cons.mp before
            exact .inr ⟨Nat.le_add_right _ _, others, behind, (Nat.add_sub_cancel_left ..).symm⟩

/-- The last boundary up to an index, sought downwards from there; there is none when the search
would go on below zero. -/
def lastBoundary? (octets : List UInt8) : Nat → Option Nat
  | 0 => if isBoundary octets 0 then some 0 else none
  | index + 1 =>
      if isBoundary octets (index + 1) then some (index + 1) else lastBoundary? octets index

/-- The search ends at a boundary that no other one follows up to the index. -/
theorem exists_lastBoundary? (octets : List UInt8) (index : Nat) :
    ∃ stop, lastBoundary? octets index = some stop ∧ stop ≤ index ∧ isBoundary octets stop ∧
      ∀ other, isBoundary octets other → other ≤ index → other ≤ stop := by
  induction index with
  | zero => exact ⟨0, rfl, Nat.le_refl 0, isBoundary_zero octets, fun _ _ atMost => atMost⟩
  | succ index ih =>
      unfold lastBoundary?
      split
      · rename_i boundary
        exact ⟨index + 1, rfl, Nat.le_refl _, boundary, fun _ _ atMost => atMost⟩
      · rename_i noBoundary
        obtain ⟨stop, found, atMost, boundary, last⟩ := ih
        refine ⟨stop, found, Nat.le_succ_of_le atMost, boundary, fun other isOther below => ?_⟩
        have different : other ≠ index + 1 := fun same => noBoundary (same ▸ isOther)
        exact last other isOther (by omega)

/-! ## Cutting -/

/-- The leading characters with exactly so many bytes; there are none when the cut would go through
a character. -/
def takeBytes? : Nat → Text → Option Text
  | 0, _ => some []
  | _ + 1, [] => none
  | count + 1, character :: rest =>
      if character.utf8Size ≤ count + 1 then
        (takeBytes? (count + 1 - character.utf8Size) rest).map (character :: ·)
      else none

/-- Leading characters are found by the number of their bytes. -/
theorem takeBytes?_byteLength {kept text : Text} (before : kept <+: text) :
    takeBytes? (byteLength kept) text = some kept := by
  induction kept generalizing text with
  | nil => exact takeBytes?.eq_1 text
  | cons character rest ih =>
      cases text with
      | nil => exact absurd before (by simp)
      | cons first others =>
          obtain ⟨rfl, behind⟩ := List.cons_prefix_cons.mp before
          have positive := character.utf8Size_pos
          obtain ⟨count, length⟩ : ∃ count, byteLength (character :: rest) = count + 1 :=
            ⟨byteLength (character :: rest) - 1, by rw [byteLength]; omega⟩
          have fits : character.utf8Size ≤ count + 1 := by
            rw [← length]
            exact Nat.le_add_right _ _
          have left : count + 1 - character.utf8Size = byteLength rest := by
            rw [← length, byteLength, Nat.add_sub_cancel_left]
          rw [length, takeBytes?, if_pos fits, left, ih behind]
          rfl

/-- What stands between two places in the bytes of a text; nothing does when a place is inside of a
character or behind the text, or when the first is behind the second. -/
def slice? (text : Text) (start stop : Nat) : Option Text := do
  let front ← takeBytes? stop text
  let passed ← takeBytes? start front
  return front.drop passed.length

theorem slice?_append (front kept rest : Text) :
    slice? (front ++ kept ++ rest) (byteLength front) (byteLength (front ++ kept)) =
      some kept := by
  have whole : takeBytes? (byteLength (front ++ kept)) (front ++ kept ++ rest) =
      some (front ++ kept) := takeBytes?_byteLength (List.prefix_append _ _)
  have passed : takeBytes? (byteLength front) (front ++ kept) = some front :=
    takeBytes?_byteLength (List.prefix_append _ _)
  simp only [slice?, whole, passed, Option.bind_eq_bind, Option.bind_some, List.drop_left]
  rfl

/-- The text itself when it fits the limit, otherwise what stands in front of the last boundary up
to the limit, and three dots. -/
def truncated? (limit : Nat) (text : Text) : Option Text :=
  if byteLength text ≤ limit then some text
  else do
    let stop ← lastBoundary? (bytes text) limit
    let kept ← takeBytes? stop text
    return kept ++ "..."

/-- Truncation never fails. A text that does not fit keeps the leading characters up to the boundary
at which the search ends. -/
theorem exists_truncated? {limit : Nat} {text : Text} (long : limit < byteLength text) :
    ∃ kept, kept <+: text ∧ lastBoundary? (bytes text) limit = some (byteLength kept) ∧
      truncated? limit text = some (kept ++ "...") := by
  obtain ⟨stop, found, _, boundary, _⟩ := exists_lastBoundary? (bytes text) limit
  obtain ⟨kept, before, rfl⟩ := isBoundary_iff.mp boundary
  refine ⟨kept, before, found, ?_⟩
  rw [truncated?, if_neg (Nat.not_le.mpr long), found]
  change (takeBytes? (byteLength kept) text >>= fun kept => some (kept ++ "...")) = _
  rw [takeBytes?_byteLength before]
  rfl

theorem isSome_truncated? (limit : Nat) (text : Text) : (truncated? limit text).isSome := by
  by_cases fits : byteLength text ≤ limit
  · rw [truncated?, if_pos fits]
    rfl
  · obtain ⟨_, _, _, ok⟩ := exists_truncated? (Nat.not_le.mp fits)
    rw [ok]
    rfl

def truncated (limit : Nat) (text : Text) : Text :=
  (truncated? limit text).get (isSome_truncated? limit text)

end Text

end SqlComposer
