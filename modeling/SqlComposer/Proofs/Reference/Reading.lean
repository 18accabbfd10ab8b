import SqlComposer.Proofs.Reference.Rendering

/-!
# Reading a table again

A table reference is read from text and written between grave accents.  Reading
what was written should give the reference back, and nearly always it does: the
parts are free of points, of alias separators and of blanks at their ends
(`TableRef.IsRead`), so every part is found where it was put.

One seam is not safe.  Blanks around a part do not count, and any blank may stand
there, whereas the alias separator is written with spaces.  A table whose name ends
in the word of the separator, with a blank other than a space behind it, is trimmed
and then written directly in front of a new separator; read from the left, that
word and the space after it are taken for the separator itself.  So a reference is
read back exactly when it has no alias or its table does not end in this word
(`TableRef.resolve_fullName_iff`).
-/

namespace SqlComposer

set_option autoImplicit false

open Text (ticked trimmed)

/-! ## What occurs beside a mark -/

namespace Text

/-- What lacks a mark and occurs in a text with the mark occurs on one of its sides. -/
theorem infix_append_cons {sought before after : Text} {mark : Char} (lacks : mark ∉ sought)
    (occurs : sought <:+: before ++ mark :: after) : sought <:+: before ∨ sought <:+: after := by
  -- An occurrence that starts at the mark, or runs up to it and on, would hold it.
  have atMark : ∀ part : Text, mark ∉ part → part <+: mark :: after → part = [] := by
    intro part lacks start
    cases part with
    | nil => rfl
    | cons first rest =>
        obtain ⟨rfl, _⟩ := List.cons_prefix_cons.mp start
        exact absurd List.mem_cons_self lacks
  rcases List.infix_append_iff.mp occurs with early | late | ⟨front, back, rfl, ends, start⟩
  · exact .inl early
  · rcases List.infix_cons_iff.mp late with start | later
    · rw [atMark sought lacks start]
      exact .inl List.nil_infix
    · exact .inr later
  · have nothing := atMark back (fun member => lacks (List.mem_append_right _ member)) start
    rw [nothing, List.append_nil]
    exact .inl ends.isInfix

/-- What lacks a mark and ends a text with the mark ends what follows the mark. -/
theorem suffix_append_cons {sought before after : Text} {mark : Char} (lacks : mark ∉ sought)
    (ends : sought <:+ before ++ mark :: after) : sought <:+ after := by
  rcases List.suffix_or_suffix_of_suffix ends (List.suffix_append before (mark :: after)) with
    inside | around
  · rcases List.suffix_cons_iff.mp inside with rfl | later
    · exact absurd List.mem_cons_self lacks
    · exact later
  · exact absurd (around.subset List.mem_cons_self) lacks

/-- The pieces between separators hold no separator. -/
theorem notMem_of_mem_splitOn {separator : Char} {text piece : Text}
    (member : piece ∈ text.splitOn separator) : separator ∉ piece := by
  induction text generalizing piece with
  | nil =>
      rw [List.splitOn_nil, List.mem_singleton] at member
      rw [member]
      exact List.not_mem_nil
  | cons first rest ih =>
      rw [List.splitOn_cons_eq_if_modifyHead] at member
      split_ifs at member with isSeparator
      · rcases List.mem_cons.mp member with rfl | later
        · exact List.not_mem_nil
        · exact ih later
      · obtain ⟨head, others, pieces⟩ :=
          List.exists_cons_of_ne_nil (List.splitOn_ne_nil separator rest)
        rw [pieces] at ih member
        rcases List.mem_cons.mp member with rfl | later
        · rw [List.mem_cons, not_or]
          exact ⟨fun same => isSeparator (by simp [same]), ih List.mem_cons_self⟩
        · exact ih (List.mem_cons_of_mem _ later)

end Text

namespace TableRef

/-! ## Alias separators -/

/-- The alias separator without the space at its end. -/
def aliasWord : Text := " AS"

theorem splitAtAlias_ne_nil (text : Text) : splitAtAlias text ≠ [] := by
  induction text using splitAtAlias.induct with
  | case1 => exact List.cons_ne_nil _ _
  | case2 rest ih => exact List.cons_ne_nil _ _
  | case3 character rest notSeparator ih =>
      rw [splitAtAlias.eq_3 _ _ notSeparator]
      exact fun nothing => ih (List.modifyHead_eq_nil_iff.mp nothing)

/-- The pieces with the separators between them are the whole text. -/
theorem joined_splitAtAlias (text : Text) :
    Text.joined aliasSeparator (splitAtAlias text) = text := by
  induction text using splitAtAlias.induct with
  | case1 => rfl
  | case2 rest ih =>
      obtain ⟨first, others, pieces⟩ := List.exists_cons_of_ne_nil (splitAtAlias_ne_nil rest)
      rw [splitAtAlias, pieces, Text.joined_cons_cons, ← pieces]
      exact congrArg (aliasSeparator ++ ·) ih
  | case3 character rest notSeparator ih =>
      obtain ⟨first, others, pieces⟩ := List.exists_cons_of_ne_nil (splitAtAlias_ne_nil rest)
      rw [splitAtAlias.eq_3 _ _ notSeparator, pieces, List.modifyHead_cons]
      rw [pieces] at ih
      cases others with
      | nil =>
          rw [Text.joined_singleton] at ih ⊢
          rw [ih]
      | cons next more =>
          rw [Text.joined_cons_cons] at ih ⊢
          rw [← ih]
          rfl

/-- A text without a separator is one piece. -/
theorem splitAtAlias_of_noSeparator {text : Text} (none : ¬ aliasSeparator <:+: text) :
    splitAtAlias text = [text] := by
  induction text using splitAtAlias.induct with
  | case1 => rfl
  | case2 rest ih => exact absurd (List.prefix_append aliasSeparator rest).isInfix none
  | case3 character rest notSeparator ih =>
      rw [splitAtAlias.eq_3 _ _ notSeparator,
        ih fun later => none (List.infix_cons_iff.mpr (.inr later))]
      rfl

/-- No piece holds a separator. -/
theorem noSeparator_of_mem_splitAtAlias {text piece : Text} (member : piece ∈ splitAtAlias text) :
    ¬ aliasSeparator <:+: piece := by
  induction text using splitAtAlias.induct generalizing piece with
  | case1 =>
      rw [List.mem_singleton.mp member, List.infix_nil]
      exact List.cons_ne_nil _ _
  | case2 rest ih =>
      rcases List.mem_cons.mp member with rfl | later
      · rw [List.infix_nil]
        exact List.cons_ne_nil _ _
      · exact ih later
  | case3 character rest notSeparator ih =>
      rw [splitAtAlias.eq_3 _ _ notSeparator] at member
      obtain ⟨first, others, pieces⟩ := List.exists_cons_of_ne_nil (splitAtAlias_ne_nil rest)
      rw [pieces] at ih member
      rcases List.mem_cons.mp member with rfl | later
      · rw [List.infix_cons_iff, not_or]
        refine ⟨fun start => ?_, ih List.mem_cons_self⟩
        -- The first piece starts the rest, so the separator would stand right here.
        have whole := joined_splitAtAlias rest
        have starts : first <+: rest := by
          rw [pieces] at whole
          cases others with
          | nil =>
              rw [Text.joined_singleton] at whole
              exact whole ▸ List.prefix_rfl
          | cons next more =>
              rw [Text.joined_cons_cons, List.append_assoc] at whole
              exact whole ▸ List.prefix_append _ _
        obtain ⟨rest', same⟩ := start.trans (List.cons_prefix_cons.mpr ⟨rfl, starts⟩)
        obtain ⟨rfl, rfl⟩ := List.cons.inj same
        exact notSeparator rest' rfl rfl
      · exact ih (List.mem_cons_of_mem _ later)

/-- What stands before the first separator is the first piece. -/
theorem splitAtAlias_append {first : Text} (none : ¬ aliasSeparator <:+: first ++ aliasWord)
    (rest : Text) :
    splitAtAlias (first ++ aliasSeparator ++ rest) = first :: splitAtAlias rest := by
  induction first with
  | nil => rfl
  | cons character others ih =>
      have notSeparator : ∀ after : Text, character = ' ' →
          others ++ aliasSeparator ++ rest = 'A' :: 'S' :: ' ' :: after → False := by
        rintro after rfl same
        -- The separator would fit into the first piece and the word behind it.
        have start : aliasSeparator <+: ' ' :: (others ++ aliasSeparator ++ rest) := by
          rw [same]
          exact List.prefix_append aliasSeparator after
        have word : (' ' :: others) ++ aliasWord <+: ' ' :: (others ++ aliasSeparator ++ rest) := by
          rw [List.append_assoc]
          exact ⟨' ' :: rest, by simp [aliasWord, aliasSeparator]⟩
        refine none (List.prefix_of_prefix_length_le start word ?_).isInfix
        simp [aliasWord, aliasSeparator]
      have others' := ih fun later => none (List.infix_cons_iff.mpr (.inr later))
      rw [List.cons_append, List.cons_append, splitAtAlias.eq_3 _ _ notSeparator, others']
      rfl

/-- A text without a separator and the word of one behind it hold a separator only if the text
ends in that word. -/
theorem aliasWord_suffix_of_separator {text : Text} (none : ¬ aliasSeparator <:+: text)
    (occurs : aliasSeparator <:+: text ++ aliasWord) : aliasWord <:+ text := by
  rcases List.infix_append_iff.mp occurs with early | late | ⟨front, back, split, ends, start⟩
  · exact absurd early none
  · exact absurd late.length_le (by decide)
  · -- Of the starts of the word only its space ends the separator.
    have last := congrArg List.getLast? split
    have start : back <+: [' ', 'A', 'S'] := start
    rcases List.prefix_cons_iff.mp start with rfl | ⟨afterSpace, rfl, inLetters⟩
    · rw [List.append_nil] at split
      exact absurd (split ▸ ends).isInfix none
    · rcases List.prefix_cons_iff.mp inLetters with rfl | ⟨afterA, rfl, inLast⟩
      · have whole : aliasWord ++ [' '] = front ++ [' '] := split
        rwa [List.append_cancel_right whole]
      · rcases List.prefix_cons_iff.mp inLast with rfl | ⟨afterS, rfl, inNothing⟩
        · simp [aliasSeparator] at last
        · obtain rfl := List.prefix_nil.mp inNothing
          simp [aliasSeparator] at last

/-! ## What reading makes sure of -/

/-- The names of a reference with a point between them. -/
def path (reference : TableRef) : Text :=
  match reference.database with
  | some database => database ++ '.' :: reference.table
  | none => reference.table

/-- A name that can be written between grave accents and is trimmed. -/
structure IsName (name : Text) : Prop where
  isTrimmed : trimmed name = name
  isAccepted : Reference.checkSegment name = .ok ()

/-- What holds of every reference that was read: its names are names, and its separators are not
hidden in them. -/
structure IsRead (reference : TableRef) : Prop where
  unticked : reference.Unticked
  table : IsName reference.table
  database : ∀ name ∈ reference.database, IsName name
  aliasName : ∀ name ∈ reference.aliasName, IsName name
  table_noPoint : '.' ∉ reference.table
  database_noPoint : ∀ name ∈ reference.database, '.' ∉ name
  path_noSeparator : ¬ aliasSeparator <:+: reference.path
  alias_noSeparator : ∀ name ∈ reference.aliasName, ¬ aliasSeparator <:+: name

/-- The parts of a reference that are found around an alias separator hold none. -/
theorem splitAlias_eq_ok {text path : Text} {aliasName : Option Text}
    (ok : splitAlias text = .ok (path, aliasName)) :
    trimmed path = path ∧ ¬ aliasSeparator <:+: path ∧
      ∀ name ∈ aliasName, trimmed name = name ∧ ¬ aliasSeparator <:+: name := by
  have part : ∀ piece ∈ splitAtAlias text,
      trimmed (trimmed piece) = trimmed piece ∧ ¬ aliasSeparator <:+: trimmed piece :=
    fun piece member => ⟨Text.trimmed_trimmed piece, fun occurs =>
      noSeparator_of_mem_splitAtAlias member (occurs.trans (Text.trimmed_isInfix piece))⟩
  unfold splitAlias at ok
  split at ok
  · rename_i written pieces
    cases ok
    rw [pieces] at part
    obtain ⟨sameTrimmed, none⟩ := part written (by simp)
    exact ⟨sameTrimmed, none, by simp⟩
  · rename_i written other pieces
    cases ok
    rw [pieces] at part
    obtain ⟨sameTrimmed, none⟩ := part written (by simp)
    exact ⟨sameTrimmed, none, by simpa using part other (by simp)⟩
  · cases ok

/-- The parts of a path that are found around a point hold no point, and make up a path without a
separator again. -/
theorem splitPath_eq_ok {text table : Text} {database aliasName : Option Text}
    (ok : splitPath text = .ok (database, table)) (none : ¬ aliasSeparator <:+: text) :
    (trimmed table = table ∧ '.' ∉ table) ∧
      (∀ name ∈ database, trimmed name = name ∧ '.' ∉ name) ∧
      ¬ aliasSeparator <:+: path { database, table, aliasName } := by
  have part : ∀ piece ∈ text.splitOn '.',
      trimmed (trimmed piece) = trimmed piece ∧ '.' ∉ trimmed piece :=
    fun piece member => ⟨Text.trimmed_trimmed piece, fun point =>
      Text.notMem_of_mem_splitOn member (Text.trimmed_subset piece point)⟩
  have whole : ['.'].intercalate (text.splitOn '.') = text := List.intercalate_splitOn '.'
  unfold splitPath at ok
  split at ok
  · rename_i written pieces
    cases ok
    rw [pieces] at part whole
    rw [List.intercalate_singleton] at whole
    refine ⟨part written (by simp), by simp, fun occurs => none ?_⟩
    exact whole ▸ occurs.trans (Text.trimmed_isInfix written)
  · rename_i first second pieces
    cases ok
    rw [pieces] at part whole
    refine ⟨part second (by simp), by simpa using part first (by simp), fun occurs => none ?_⟩
    have whole : first ++ '.' :: second = text := by
      rw [← whole, List.intercalate_cons_cons, List.intercalate_singleton, List.append_assoc]
      rfl
    rw [← whole]
    rcases Text.infix_append_cons (by decide) occurs with inDatabase | inTable
    · exact (inDatabase.trans (Text.trimmed_isInfix first)).trans (List.prefix_append _ _).isInfix
    · exact (inTable.trans (Text.trimmed_isInfix second)).trans
        ⟨first ++ ['.'], [], by simp⟩
  · cases ok

theorem isRead_of_resolve {raw : Text} {reference : TableRef} (ok : resolve raw = .ok reference) :
    reference.IsRead := by
  have unticked := unticked_of_resolve ok
  obtain ⟨⟨text, aliasName⟩, split, ok⟩ := bind_eq_ok.mp (mapError_eq_ok.mp ok)
  obtain ⟨⟨database, table⟩, parts, ok⟩ := bind_eq_ok.mp ok
  obtain ⟨⟨⟩, tableAccepted, ok⟩ := bind_eq_ok.mp ok
  obtain ⟨⟨⟩, databaseAccepted, ok⟩ := bind_eq_ok.mp ok
  obtain ⟨⟨⟩, aliasAccepted, ok⟩ := bind_eq_ok.mp ok
  cases ok
  obtain ⟨_, none, ofAlias⟩ := splitAlias_eq_ok split
  obtain ⟨ofTable, ofDatabase, noSeparator⟩ := splitPath_eq_ok parts none
  refine
    { unticked
      table := ⟨ofTable.1, tableAccepted⟩
      database := ?_
      aliasName := ?_
      table_noPoint := ofTable.2
      database_noPoint := fun name member => (ofDatabase name member).2
      path_noSeparator := noSeparator
      alias_noSeparator := fun name member => (ofAlias name member).2 }
  · rintro name rfl
    exact ⟨(ofDatabase name rfl).1, databaseAccepted⟩
  · rintro name rfl
    exact ⟨(ofAlias name rfl).1, aliasAccepted⟩

/-! ## Written references -/

/-- The word of an alias separator ends the path of a table just if it ends the table. -/
theorem aliasWord_suffix_path_iff {reference : TableRef} :
    aliasWord <:+ reference.path ↔ aliasWord <:+ reference.table := by
  unfold path
  cases reference.database with
  | none => exact Iff.rfl
  | some written =>
      refine ⟨Text.suffix_append_cons (by decide), fun ends => ?_⟩
      exact ends.trans ((List.suffix_cons '.' _).trans (List.suffix_append written _))

namespace IsName

variable {name : Text} (isName : IsName name)
include isName

theorem ne_nil : name ≠ [] := by
  rintro rfl
  cases isName.isAccepted

theorem start : ∀ first ∈ name.head?, Text.isBlank first = false :=
  fun _ here => Text.isBlank_head?_trimmed (isName.isTrimmed.symm ▸ here)

theorem stop : ∀ last ∈ name.getLast?, Text.isBlank last = false :=
  fun _ here => Text.isBlank_getLast?_trimmed (isName.isTrimmed.symm ▸ here)

/-- A name stays trimmed behind a text that does not start with a blank. -/
theorem trimmed_append {before : Text} (nonempty : before ≠ [])
    (start : ∀ first ∈ before.head?, Text.isBlank first = false) :
    trimmed (before ++ name) = before ++ name := by
  refine Text.trimmed_eq_self ?_ ?_
  · rw [List.head?_append_of_ne_nil _ nonempty]
    exact start
  · rw [List.getLast?_append_of_ne_nil _ isName.ne_nil]
    exact isName.stop

end IsName

namespace IsRead

variable {reference : TableRef} (isRead : reference.IsRead)
include isRead

theorem unquoted_name : Reference.unquoted reference.name = reference.path := by
  unfold name path
  cases database : reference.database with
  | none => exact Reference.unquoted_ticked isRead.unticked.table
  | some written =>
      have ofDatabase := Reference.unquoted_ticked (isRead.unticked.database written database)
      have ofTable := Reference.unquoted_ticked isRead.unticked.table
      have point : Reference.unquoted ('.' :: ticked reference.table) = '.' :: reference.table :=
        congrArg ('.' :: ·) ofTable
      exact (Reference.unquoted_append _ _).trans (congrArg₂ (· ++ ·) ofDatabase point)

theorem unquoted_aliased {written : Text} (aliasName : reference.aliasName = some written) :
    Reference.unquoted reference.fullName = reference.path ++ aliasSeparator ++ written := by
  have separator : Reference.unquoted aliasSeparator = aliasSeparator := by decide
  have ofAlias := Reference.unquoted_ticked (isRead.unticked.aliasName written aliasName)
  rw [fullName, aliasName]
  dsimp only
  rw [Reference.unquoted_append, Reference.unquoted_append, isRead.unquoted_name, separator, ofAlias]

theorem trimmed_path : trimmed reference.path = reference.path := by
  unfold path
  cases database : reference.database with
  | none => exact isRead.table.isTrimmed
  | some written =>
      have isName := isRead.database written database
      have start : ∀ first ∈ (written ++ ['.']).head?, Text.isBlank first = false := by
        rw [List.head?_append_of_ne_nil _ isName.ne_nil]
        exact isName.start
      have behind := isRead.table.trimmed_append (by simp) start
      rwa [List.append_assoc] at behind

theorem splitPath_path :
    splitPath reference.path = .ok (reference.database, reference.table) := by
  have ofTable := List.splitOn_eq_singleton isRead.table_noPoint
  unfold path
  cases database : reference.database with
  | none =>
      rw [splitPath, ofTable]
      dsimp only
      rw [isRead.table.isTrimmed]
  | some written =>
      have pieces := List.splitOn_append_cons_self_of_not_mem
        (isRead.database_noPoint written database) reference.table
      rw [splitPath, pieces, ofTable]
      dsimp only
      rw [(isRead.database written database).isTrimmed, isRead.table.isTrimmed]

/-- What is read depends only on where the alias is found. -/
theorem parse_of_splitAlias {text : Text}
    (split : splitAlias (Reference.unquoted text) = .ok (reference.path, reference.aliasName)) :
    parse text = .ok reference := by
  have databaseAccepted : reference.database.forM Reference.checkSegment = .ok () := by
    cases database : reference.database with
    | none => rfl
    | some written => exact (isRead.database written database).isAccepted
  have aliasAccepted : reference.aliasName.forM Reference.checkSegment = .ok () := by
    cases aliasName : reference.aliasName with
    | none => rfl
    | some written => exact (isRead.aliasName written aliasName).isAccepted
  simp only [parse, split, isRead.splitPath_path, bind, Except.bind, isRead.table.isAccepted,
    databaseAccepted, aliasAccepted]
  rfl

/-- A reference is read back unless a separator begins in its table. -/
theorem resolve_fullName
    (isSafe : reference.aliasName = none ∨ ¬ aliasWord <:+ reference.table) :
    resolve reference.fullName = .ok reference := by
  refine mapError_eq_ok.mpr (isRead.parse_of_splitAlias ?_)
  cases aliasName : reference.aliasName with
  | none =>
      rw [splitAlias, fullName, aliasName]
      dsimp only
      rw [isRead.unquoted_name, splitAtAlias_of_noSeparator isRead.path_noSeparator]
      dsimp only
      rw [isRead.trimmed_path]
  | some written =>
      have isName := isRead.aliasName written aliasName
      have notInTable : ¬ aliasWord <:+ reference.table :=
        isSafe.resolve_left (by rw [aliasName]; exact Option.some_ne_none _)
      have atEnd : ¬ aliasSeparator <:+: reference.path ++ aliasWord := fun occurs =>
        notInTable (aliasWord_suffix_path_iff.mp
          (aliasWord_suffix_of_separator isRead.path_noSeparator occurs))
      rw [splitAlias, isRead.unquoted_aliased aliasName, splitAtAlias_append atEnd,
        splitAtAlias_of_noSeparator (isRead.alias_noSeparator written aliasName)]
      dsimp only
      rw [isRead.trimmed_path, isName.isTrimmed]

/-- A separator that begins in the table is found first, and what is left of the word goes to the
alias. -/
theorem resolve_fullName_ne {written : Text} (aliasName : reference.aliasName = some written)
    (ends : aliasWord <:+ reference.table) : resolve reference.fullName ≠ .ok reference := by
  have isName := isRead.aliasName written aliasName
  obtain ⟨front, whole⟩ := aliasWord_suffix_path_iff.mpr ends
  have atEnd : ¬ aliasSeparator <:+: front ++ aliasWord := whole ▸ isRead.path_noSeparator
  have text : Reference.unquoted reference.fullName =
      front ++ aliasSeparator ++ ("AS " ++ written) := by
    rw [isRead.unquoted_aliased aliasName, ← whole, List.append_assoc, List.append_assoc,
      List.append_assoc]
    rfl
  have pieces := splitAtAlias_append atEnd ("AS " ++ written)
  intro ok
  obtain ⟨⟨path, found⟩, split, ok⟩ := bind_eq_ok.mp (mapError_eq_ok.mp ok)
  obtain ⟨⟨database, table⟩, _, ok⟩ := bind_eq_ok.mp ok
  obtain ⟨_, _, ok⟩ := bind_eq_ok.mp ok
  obtain ⟨_, _, ok⟩ := bind_eq_ok.mp ok
  obtain ⟨_, _, ok⟩ := bind_eq_ok.mp ok
  have foundAlias : found = some written :=
    (congrArg TableRef.aliasName (Except.ok.inj ok)).trans aliasName
  rw [splitAlias, text, pieces] at split
  -- Only a text of two pieces has an alias, and the second piece is longer than the alias was.
  have joined := joined_splitAtAlias ("AS " ++ written)
  split at split
  · rename_i one
    exact splitAtAlias_ne_nil _ (List.cons.inj one).2
  · rename_i first second two
    rw [(List.cons.inj two).2, Text.joined_singleton] at joined
    have same : some (trimmed second) = some written :=
      (congrArg Prod.snd (Except.ok.inj split)).trans foundAlias
    have start : ∀ first ∈ ("AS " : Text).head?, Text.isBlank first = false := by
      intro first member
      obtain rfl : 'A' = first := Option.some.inj member
      decide
    have nonempty : ("AS " : Text) ≠ [] := List.cons_ne_nil _ _
    rw [joined, isName.trimmed_append nonempty start] at same
    have length := congrArg List.length (Option.some.inj same)
    simp only [List.length_append] at length
    exact absurd length (by simp)
  · cases split

end IsRead

/-! ## Reading again -/

/-- A reference that was read is read back from what it writes exactly when it has no alias or its
table does not end in the word of an alias separator. -/
theorem resolve_fullName_iff {raw : Text} {reference : TableRef}
    (ok : resolve raw = .ok reference) :
    resolve reference.fullName = .ok reference ↔
      reference.aliasName = none ∨ ¬ aliasWord <:+ reference.table := by
  have isRead := isRead_of_resolve ok
  refine ⟨fun again => ?_, isRead.resolve_fullName⟩
  cases aliasName : reference.aliasName with
  | none => exact .inl rfl
  | some written => exact .inr fun ends => isRead.resolve_fullName_ne aliasName ends again

/-- A name with an alias between odd blanks, which is read back. -/
theorem resolve_fullName_iff_orders :
    resolve "shop . orders\t AS \to" = .ok ⟨some "shop", "orders", some "o"⟩ ∧
      resolve "`shop`.`orders` AS `o`" = .ok ⟨some "shop", "orders", some "o"⟩ := by
  have ok : resolve "shop . orders\t AS \to" = .ok ⟨some "shop", "orders", some "o"⟩ := by decide
  exact ⟨ok, (resolve_fullName_iff ok).mpr (.inr (by decide))⟩

/-- The word of a separator at the end of a table is read back as the start of the alias. -/
theorem aliasWord_moves_to_alias :
    resolve "x AS\t AS y" = .ok ⟨none, "x AS", some "y"⟩ ∧
      resolve (fullName ⟨none, "x AS", some "y"⟩) = .ok ⟨none, "x", some "AS y"⟩ := by
  decide

end TableRef

end SqlComposer
