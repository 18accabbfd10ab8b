import SqlComposer.Text.Basic

/-!
# Words and letter case

Letter case and word characters are those of ASCII, whatever else the text
holds.  A plain word (`isPlainWord`) is what may stand for a name without
quotes: a letter or an underscore, then letters, digits, underscores and dollar
signs.  A marker in a template is read with the smaller alphabet of
`isWordCharacter`, which has no dollar sign.
-/

namespace SqlComposer

set_option autoImplicit false

namespace Text

/-- The text with its ASCII letters in upper case. -/
def uppercase (text : Text) : Text :=
  text.map Char.toUpper

/-- A property of all ASCII characters is checked by looking at each of them. -/
theorem of_ascii (holds : Char → Prop) (each : ∀ code < 128, holds (Char.ofNat code))
    {character : Char} (small : character.toNat < 128) : holds character := by
  have here := each character.toNat small
  rwa [Char.ofNat_toNat] at here

/-- Characters outside of ASCII have no other case. -/
theorem toUpper_eq_self {character : Char} (large : ¬ character.toNat < 128) :
    character.toUpper = character := by
  refine dif_neg ?_
  rintro ⟨_, atMost⟩
  exact large (Nat.lt_of_le_of_lt (UInt32.le_iff_toNat_le.mp atMost) (by decide))

/-- A text in upper case has no letters left to change. -/
theorem uppercase_uppercase (text : Text) : uppercase (uppercase text) = uppercase text := by
  rw [uppercase, uppercase, List.map_map]
  refine List.map_congr_left fun character _ => ?_
  change character.toUpper.toUpper = character.toUpper
  by_cases small : character.toNat < 128
  · exact of_ascii (fun other => other.toUpper.toUpper = other.toUpper) (by decide) small
  · rw [toUpper_eq_self small, toUpper_eq_self small]

/-- The text with its ASCII letters in lower case. -/
def lowercase (text : Text) : Text :=
  text.map Char.toLower

/-- An ASCII letter, an ASCII digit or an underscore. -/
def isWordCharacter (character : Char) : Bool :=
  character.isAlphanum || character == '_'

/-- An ASCII letter or an underscore. -/
def isWordStart (character : Char) : Bool :=
  character.isAlpha || character == '_'

/-- Whether a text is a name that needs no quotes. -/
def isPlainWord : Text → Bool
  | [] => false
  | first :: rest =>
      isWordStart first && rest.all fun character => isWordCharacter character || character == '$'

def occursIn (sought : Text) : Text → Bool
  | [] => sought.isEmpty
  | character :: rest => sought.isPrefixOf (character :: rest) || occursIn sought rest

/-- A text occurs in another when it is a run of characters of it. -/
theorem occursIn_iff_infix {sought text : Text} : occursIn sought text ↔ sought <:+: text := by
  induction text with
  | nil => rw [occursIn, List.isEmpty_iff, List.infix_nil]
  | cons character rest ih =>
      rw [occursIn, Bool.or_eq_true, List.isPrefixOf_iff_prefix, ih, List.infix_cons_iff]

end Text

end SqlComposer
