import SpanScore.Json.Print
import SpanScore.Proofs.Decimal.Layout
import SpanScore.Proofs.Json.Shape
import SpanScore.Proofs.Json.Spelling
import SpanScore.Proofs.Json.Values

/-!
# What is printed is JSON

The text of every value is the text of a tree, in every layout that puts a comma between items, a
colon behind keys and nothing but white space behind either.  The tree means the value again when
the value is plain: a double need not come back, and members that are out of order come back in
order.
-/

namespace SpanScore.Json

open Grammar

namespace Print

/-! ## Strings -/

/-- The piece that spells a control character. -/
theorem exists_control {char : Char} (h : char < ' ') :
    ∃ piece : Piece,
      ['\\', 'u', '0', '0', Nat.digitChar (char.toNat / 16), Nat.digitChar (char.toNat % 16)] =
        piece.text ∧ Piece.Spells [piece] char := by
  have small : char.toNat < 32 := h
  let unit : CodeUnit := ⟨⟨0, false⟩, ⟨0, false⟩, ⟨⟨char.toNat / 16, by omega⟩, false⟩,
    ⟨⟨char.toNat % 16, by omega⟩, false⟩⟩
  have value : unit.value = char.toNat := by
    change ((0 * 16 + 0) * 16 + char.toNat / 16) * 16 + char.toNat % 16 = char.toNat
    omega
  have leading : ¬unit.IsLeading := by
    rw [CodeUnit.IsLeading, value]
    omega
  have trailing : ¬unit.IsTrailing := by
    rw [CodeUnit.IsTrailing, value]
    omega
  have spells := Piece.spells_unicode leading trailing
  rw [value, Char.ofNat_toNat] at spells
  exact ⟨.unicode unit, rfl, spells⟩

/-- Every character is written as a piece that spells it. -/
theorem exists_piece (char : Char) :
    ∃ piece : Piece, spell char = piece.text ∧ Piece.Spells [piece] char := by
  unfold spell
  split
  · next same => exact ⟨.short .quote, rfl, same ▸ Piece.spells_short .quote⟩
  next notQuote =>
  split
  · next same => exact ⟨.short .backslash, rfl, same ▸ Piece.spells_short .backslash⟩
  next notBackslash =>
  split
  · next same => exact ⟨.short .newline, rfl, same ▸ Piece.spells_short .newline⟩
  split
  · next same => exact ⟨.short .carriageReturn, rfl, same ▸ Piece.spells_short .carriageReturn⟩
  split
  · next same => exact ⟨.short .tab, rfl, same ▸ Piece.spells_short .tab⟩
  split
  · next same => exact ⟨.short .backspace, rfl, same ▸ Piece.spells_short .backspace⟩
  split
  · next same => exact ⟨.short .formFeed, rfl, same ▸ Piece.spells_short .formFeed⟩
  split
  · next control => exact exists_control control
  · next printable =>
    exact ⟨.plain char ⟨Char.not_lt.1 printable, notQuote, notBackslash⟩, rfl,
      Piece.spells_plain char _⟩

theorem exists_pieces (chars : List Char) :
    ∃ pieces, chars.flatMap spell = Piece.texts pieces ∧ Piece.decode? pieces = some chars := by
  induction chars with
  | nil => exact ⟨[], rfl, rfl⟩
  | cons char chars ih =>
    obtain ⟨pieces, texts, decoded⟩ := ih
    obtain ⟨piece, text, spells⟩ := exists_piece char
    refine ⟨[piece] ++ pieces, ?_, ?_⟩
    · rw [List.flatMap_cons, text, texts]
      rfl
    · rw [spells pieces, decoded, Option.map_some]

/-- A string is written as a token that spells it. -/
theorem exists_literal (text : String) :
    ∃ literal : Literal, string text = '"' :: literal.body ∧ literal.decode? = some text := by
  obtain ⟨pieces, texts, decoded⟩ := exists_pieces text.toList
  exact ⟨⟨pieces⟩, by rw [string, texts, Literal.body],
    by rw [Literal.decode?, decoded, Option.map_some, String.ofList_toList]⟩

/-! ## Numbers -/

/-- The digits of a natural number are a number. -/
def natural (negative : Bool) (value : Nat) : NumberToken :=
  ⟨negative, Decimal.naturalRun value, Decimal.isCanonical_naturalRun value, none, none⟩

theorem text_natural (negative : Bool) (value : Nat) :
    (natural negative value).text =
      if negative then '-' :: Nat.toDigits 10 value else Nat.toDigits 10 value := by
  simp [natural, NumberToken.text, NumberToken.unsigned, DigitRun.fractionText, Exponent.text]

/-- The digits of a word mean the word. -/
theorem value?_natural (negative : Bool) {value : ℕ} (fits : value < UInt64.size) :
    (natural negative value).value? = some (Digits.ofInteger negative value) := by
  have mantissa : (natural negative value).mantissa = value := by
    rw [natural, NumberToken.mantissa, NumberToken.fractionDigits, Option.map_none,
      Option.getD_none, List.append_nil, Decimal.text_naturalRun,
      Nat.ofDigitChars_toDigits (by decide) (by decide)]
  have significand := NumberToken.significand_of_lt (mantissa.symm ▸ fits)
  rw [mantissa] at significand
  rw [NumberToken.value?, significand]
  rfl

/-- An integer is written as a number, which means the integer as far as it is one of 64 bits. -/
theorem exists_token_integer (value : ℤ) : ∃ token : NumberToken,
    number (.integer value) = token.text ∧
      ((Number.integer value).IsWord → token.value? = some (.integer value)) := by
  cases value with
  | ofNat value =>
    refine ⟨natural false value, ?_, fun word ↦ ?_⟩
    · rw [text_natural]
      exact Nat.toList_repr
    · rw [value?_natural false (Int.ofNat_lt.1 word.2)]
      rfl
  | negSucc value =>
    refine ⟨natural true (value + 1), ?_, fun word ↦ ?_⟩
    · rw [text_natural]
      change ("-" ++ Nat.repr (value + 1)).toList = _
      rw [String.toList_append, Nat.toList_repr]
      rfl
    · have small : value + 1 ≤ Nat.pow 2 63 := by
        have low := word.1
        change _ ≤ 2 ^ 63
        omega
      rw [value?_natural true (lt_of_le_of_lt small (by decide)), Digits.ofInteger]
      simp [small, Int.negSucc_eq]

/-- A finite double is written as a number, and any other double is `null`. -/
theorem double_cases (value : Float) :
    (∃ token : NumberToken, double value = token.text) ∨ double value = Tree.null.text := by
  unfold double
  split
  · next finite => exact .inl (Decimal.Layout.json.exists_number finite)
  · exact .inr rfl

end Print

/-! ## Values -/

namespace Value

variable {spacing : Spacing} {comma colon : Gap}

mutual

/-- The text of a value is the text of a tree, which means the value when it is plain. -/
theorem exists_tree (commas : spacing.comma = ',' :: comma.text)
    (colons : spacing.colon = ':' :: colon.text) :
    (value : Value) → ∃ tree : Tree, value.print spacing = tree.text ∧
      ∀ depth, value.IsPlainAt depth → tree.value? depth = some value
  | .null => ⟨.null, rfl, fun _ _ ↦ rfl⟩
  | .bool true => ⟨.bool true, rfl, fun _ _ ↦ rfl⟩
  | .bool false => ⟨.bool false, rfl, fun _ _ ↦ rfl⟩
  | .number (.integer value) => by
    obtain ⟨token, text, means⟩ := Print.exists_token_integer value
    exact ⟨.number token, text, fun depth plain ↦ by
      rw [Tree.value?, means (plain.words _ (by simp [numbers])), Option.map_some]⟩
  | .number (.double value) => by
    have double : ∃ tree : Tree, Print.double value = tree.text :=
      (Print.double_cases value).elim (fun ⟨token, text⟩ ↦ ⟨.number token, text⟩)
        fun text ↦ ⟨.null, text⟩
    obtain ⟨tree, text⟩ := double
    exact ⟨tree, text, fun depth plain ↦ (plain.words (.double value) (by simp [numbers])).elim⟩
  | .string text => by
    obtain ⟨literal, text_eq, decoded⟩ := Print.exists_literal text
    exact ⟨.string literal, text_eq, fun depth _ ↦ by rw [Tree.value?, decoded, Option.map_some]⟩
  | .array [] => by
    refine ⟨.emptyArray .none, rfl, fun depth plain ↦ ?_⟩
    rw [Tree.value?, if_neg (Nat.not_le.2 (isPlainAt_array plain).1)]
  | .array (item :: items) => by
    obtain ⟨first, text, means⟩ := exists_tree commas colons item
    obtain ⟨inner, texts, mean⟩ := exists_items commas colons .none first items
    refine ⟨.array inner, ?_, fun depth plain ↦ ?_⟩
    · rw [print, printItems, text, Print.array, Tree.text, texts]
      rfl
    · obtain ⟨room, plains⟩ := isPlainAt_array plain
      rw [List.forall_mem_cons] at plains
      rw [Tree.value?, if_neg (Nat.not_le.2 room), mean (means _ plains.1) plains.2,
        Option.map_some]
  | .object [] => by
    refine ⟨.emptyObject .none, rfl, fun depth plain ↦ ?_⟩
    rw [Tree.value?, if_neg (Nat.not_le.2 (isPlainAt_object plain).1)]
  | .object ((key, value) :: members) => by
    obtain ⟨first, text, means⟩ := exists_tree commas colons value
    obtain ⟨inner, texts, firstKey, mean⟩ := exists_members commas colons .none key first members
    refine ⟨.object inner, ?_, fun depth plain ↦ ?_⟩
    · rw [print, printMembers, text, Print.object, Tree.text, texts]
      rfl
    · obtain ⟨room, increase, unwrapped, plains⟩ := isPlainAt_object plain
      rw [List.forall_mem_cons] at plains
      have ordinary : ¬inner.IsWrapper := by
        rw [Members.IsWrapper, firstKey, Option.some.injEq]
        exact unwrapped (key, value) rfl
      have all := mean .empty (means _ plains.1) increase plains.2
      obtain ⟨found, found_eq, list_eq⟩ := Option.map_eq_some_iff.1 all
      rw [Tree.value?, if_neg (Nat.not_le.2 room), if_neg ordinary, found_eq, Option.map_some,
        list_eq]
      rfl

/-- The texts of items with commas between them are the text of the items of an array. -/
theorem exists_items (commas : spacing.comma = ',' :: comma.text)
    (colons : spacing.colon = ':' :: colon.text) (before : Gap) (first : Tree) :
    (items : List Value) → ∃ inner : Items,
      inner.text = before.text ++ Print.separated spacing (first.text :: printItems spacing items) ∧
      ∀ {depth value}, first.value? depth = some value → (∀ item ∈ items, item.IsPlainAt depth) →
        inner.values? depth = some (value :: items)
  | [] => by
    refine ⟨.one before first .none, ?_, fun head _ ↦ ?_⟩
    · simp [Items.text, printItems, Print.separated]
    · rw [Items.values?, head, Option.map_some]
  | item :: items => by
    obtain ⟨second, text, means⟩ := exists_tree commas colons item
    obtain ⟨more, texts, mean⟩ := exists_items commas colons comma second items
    refine ⟨.more before first .none more, ?_, fun head plains ↦ ?_⟩
    · rw [Items.text, texts]
      simp [printItems, Print.separated, text, commas]
    · rw [List.forall_mem_cons] at plains
      rw [Items.values?, head, Option.bind_some, mean (means _ plains.1) plains.2, Option.map_some]

/-- The texts of members with commas between them are the text of the members of an object, which
are put behind earlier members when all keys increase. -/
theorem exists_members (commas : spacing.comma = ',' :: comma.text)
    (colons : spacing.colon = ':' :: colon.text) (before : Gap) (key : String) (first : Tree) :
    (members : List (String × Value)) → ∃ inner : Members,
      inner.text = before.text ++ Print.separated spacing
        (Print.member spacing key first.text :: printMembers spacing members) ∧
      inner.firstKey.decode? = some key ∧
      ∀ {depth value} (earlier : OrderedMembers), first.value? depth = some value →
        KeysIncrease (earlier.list ++ (key, value) :: members) →
        (∀ member ∈ members, member.2.IsPlainAt depth) →
        (inner.values? depth earlier).map OrderedMembers.list =
          some (earlier.list ++ (key, value) :: members)
  | [] => by
    obtain ⟨literal, name, decoded⟩ := Print.exists_literal key
    refine ⟨.one ⟨before, literal, .none⟩ colon first .none, ?_, decoded,
      fun {_ found} earlier head increase _ ↦ ?_⟩
    · simp [Members.text, Key.text, printMembers, Print.separated, Print.member, name, colons]
    · rw [Members.values?, decoded, Option.bind_some, head, Option.map_some, Option.map_some]
      exact congrArg some (insert_of_forall_lt increase.forall_lt found)
  | (other, value) :: members => by
    obtain ⟨second, text, means⟩ := exists_tree commas colons value
    obtain ⟨literal, name, decoded⟩ := Print.exists_literal key
    obtain ⟨more, texts, -, mean⟩ := exists_members commas colons comma other second members
    refine ⟨.more ⟨before, literal, .none⟩ colon first .none more, ?_, decoded,
      fun {_ found} earlier head increase plains ↦ ?_⟩
    · rw [Members.text, texts]
      simp [Key.text, printMembers, Print.separated, Print.member, name, colons, text, commas]
    · rw [List.forall_mem_cons] at plains
      have put : (earlier.insert key found).list = earlier.list ++ [(key, found)] :=
        insert_of_forall_lt increase.forall_lt found
      rw [List.append_cons earlier.list (key, found) ((other, value) :: members), ← put]
        at increase ⊢
      rw [Members.values?, decoded, Option.bind_some, head, Option.bind_some]
      exact mean _ (means _ plains.1) increase plains.2

end

end Value

end SpanScore.Json
