import SpanScore.Proofs.Json.Print

/-!
# Spaces behind commas and colons

A text is spread by a space behind each comma and each colon outside of its strings.  Main
statements: the spread text of a tree is the text of a tree with the same value, so a JSON text
means the same when it is spread, and the compact text of a value is spread to its text with spaces.
-/

namespace SpanScore.Json

open Grammar

namespace Spread

/-- Where a character of a text stands: outside of strings, in a string, or there behind a
backslash. -/
inductive Place where
  | outside
  | inString
  | escaped
deriving DecidableEq

/-- Where the character behind another one stands. -/
def Place.next : Place → Char → Place
  | .outside, char => if char = '"' then .inString else .outside
  | .inString, char =>
    if char = '"' then .outside else if char = '\\' then .escaped else .inString
  | .escaped, _ => .inString

/-- A text from some place on, with a space behind each comma and each colon outside of strings. -/
def spreadFrom : Place → List Char → List Char
  | _, [] => []
  | place, char :: rest =>
    if place = .outside ∧ (char = ',' ∨ char = ':') then
      char :: ' ' :: spreadFrom (place.next char) rest
    else char :: spreadFrom (place.next char) rest

/-- A text with a space behind each comma and each colon outside of strings. -/
def spread (text : List Char) : List Char :=
  spreadFrom .outside text

/-- Whether a part of a text, which begins and ends outside of strings, is spread to another one. -/
def SpreadsTo (text wide : List Char) : Prop :=
  ∀ rest, spread (text ++ rest) = wide ++ spread rest

/-! ## Parts of a text -/

theorem SpreadsTo.eq {text wide : List Char} (h : SpreadsTo text wide) : spread text = wide := by
  have whole := h []
  rwa [List.append_nil, show spread [] = [] from rfl, List.append_nil] at whole

theorem SpreadsTo.nil : SpreadsTo [] [] :=
  fun _ ↦ rfl

theorem SpreadsTo.append {left left' right right' : List Char} (h : SpreadsTo left left')
    (h' : SpreadsTo right right') : SpreadsTo (left ++ right) (left' ++ right') := by
  intro rest
  rw [List.append_assoc, h, h', List.append_assoc]

/-- A character that neither opens a string nor separates anything stays as it is. -/
theorem SpreadsTo.cons {char : Char} (plain : char ≠ '"' ∧ char ≠ ',' ∧ char ≠ ':')
    {text wide : List Char} (h : SpreadsTo text wide) :
    SpreadsTo (char :: text) (char :: wide) := by
  intro rest
  obtain ⟨notQuote, notComma, notColon⟩ := plain
  rw [List.cons_append, spread, spreadFrom, if_neg (by simp [notComma, notColon]), Place.next,
    if_neg notQuote]
  exact congrArg (char :: ·) (h rest)

theorem spreadsTo_comma : SpreadsTo [','] [',', ' '] :=
  fun _ ↦ rfl

theorem spreadsTo_colon : SpreadsTo [':'] [':', ' '] :=
  fun _ ↦ rfl

theorem spreadsTo_of_plain {text : List Char}
    (plain : ∀ char ∈ text, char ≠ '"' ∧ char ≠ ',' ∧ char ≠ ':') : SpreadsTo text text := by
  induction text with
  | nil => exact .nil
  | cons char text ih =>
    rw [List.forall_mem_cons] at plain
    exact (ih plain.2).cons plain.1

/-- Brackets stay as they are. -/
theorem spreadsTo_between {left right : Char} (plain : left ≠ '"' ∧ left ≠ ',' ∧ left ≠ ':')
    (plain' : right ≠ '"' ∧ right ≠ ',' ∧ right ≠ ':') {text wide : List Char}
    (h : SpreadsTo text wide) : SpreadsTo (left :: (text ++ [right])) (left :: (wide ++ [right])) :=
  (h.append (SpreadsTo.nil.cons plain')).cons plain

/-! ## Tokens -/

theorem spreadsTo_gap (gap : Gap) : SpreadsTo gap.text gap.text := by
  refine spreadsTo_of_plain fun char mem ↦ ?_
  rcases gap.blank char mem with rfl | rfl | rfl | rfl <;> decide

theorem spreadsTo_digits (digits : DigitRun) : SpreadsTo digits.text digits.text :=
  spreadsTo_of_plain fun char mem ↦
    have isDigit := digits.decimal char mem
    ⟨Scan.ne_of_isDigit isDigit rfl, Scan.ne_of_isDigit isDigit rfl,
      Scan.ne_of_isDigit isDigit rfl⟩

theorem spreadsTo_fraction (fraction : Option DigitRun) :
    SpreadsTo (DigitRun.fractionText fraction) (DigitRun.fractionText fraction) := by
  cases fraction with
  | none => exact .nil
  | some digits => exact (spreadsTo_digits digits).cons (by decide)

theorem spreadsTo_exponent (exponent : Option Exponent) :
    SpreadsTo (Exponent.text exponent) (Exponent.text exponent) := by
  cases exponent with
  | none => exact .nil
  | some exponent =>
    obtain ⟨capital, sign, digits⟩ := exponent
    have signed : SpreadsTo (Sign.text sign ++ digits.text) (Sign.text sign ++ digits.text) := by
      refine SpreadsTo.append (spreadsTo_of_plain fun char mem ↦ ?_) (spreadsTo_digits digits)
      rcases sign with _ | _ | _ <;> simp [Sign.text] at mem <;> subst mem <;> decide
    have mark : ∀ capital : Bool, (if capital then 'E' else 'e') ≠ '"' ∧
        (if capital then 'E' else 'e') ≠ ',' ∧ (if capital then 'E' else 'e') ≠ ':' := by
      decide
    exact signed.cons (mark capital)

theorem spreadsTo_number (token : NumberToken) : SpreadsTo token.text token.text := by
  have unsigned : SpreadsTo token.unsigned token.unsigned :=
    (spreadsTo_digits _).append ((spreadsTo_fraction _).append (spreadsTo_exponent _))
  rw [NumberToken.text]
  split
  · exact unsigned.cons (by decide)
  · exact unsigned

/-- Inside of a string only a quote and a backslash lead elsewhere. -/
theorem spreadFrom_inString {char : Char} (notQuote : char ≠ '"') (notBackslash : char ≠ '\\')
    (rest : List Char) :
    spreadFrom .inString (char :: rest) = char :: spreadFrom .inString rest := by
  rw [spreadFrom, if_neg (by simp), Place.next, if_neg notQuote, if_neg notBackslash]

theorem ne_of_hexDigit (digit : HexDigit) : digit.char ≠ '"' ∧ digit.char ≠ '\\' := by
  obtain ⟨value, capital⟩ := digit
  revert value capital
  decide

theorem spreadFrom_piece (piece : Piece) (rest : List Char) :
    spreadFrom .inString (piece.text ++ rest) = piece.text ++ spreadFrom .inString rest := by
  cases piece with
  | plain char allowed => exact spreadFrom_inString allowed.2.1 allowed.2.2 rest
  | short escape => rfl
  | unicode unit =>
    have digit (digit : HexDigit) :=
      spreadFrom_inString (ne_of_hexDigit digit).1 (ne_of_hexDigit digit).2
    change '\\' :: 'u' :: spreadFrom .inString (unit.text ++ rest) = _
    rw [CodeUnit.text]
    simp only [List.cons_append, List.nil_append, digit]
    rfl

theorem spreadFrom_pieces (pieces : List Piece) (rest : List Char) :
    spreadFrom .inString (Piece.texts pieces ++ rest) =
      Piece.texts pieces ++ spreadFrom .inString rest := by
  induction pieces with
  | nil => rfl
  | cons piece pieces ih =>
    rw [Piece.texts_cons, List.append_assoc, spreadFrom_piece, ih, List.append_assoc]

/-- A string stays as it is, whatever commas, colons and escapes are in it. -/
theorem spreadsTo_literal (literal : Literal) :
    SpreadsTo ('"' :: literal.body) ('"' :: literal.body) := by
  intro rest
  have opened : spread ('"' :: (literal.body ++ rest)) =
      '"' :: spreadFrom .inString (literal.body ++ rest) := rfl
  have closed : spreadFrom .inString ('"' :: rest) = '"' :: spread rest := rfl
  rw [List.cons_append, opened, Literal.body, List.append_assoc, spreadFrom_pieces]
  simp [closed]

end Spread

/-! ## Trees -/

namespace Grammar

mutual

/-- A tree with a space more behind each comma and each colon. -/
def Tree.spread : Tree → Tree
  | .array items => .array (items.spread .none)
  | .object members => .object (members.spread .none)
  | tree => tree

/-- Items with a space more behind each comma, and with some white space in front. -/
def Items.spread (before : Gap) : Items → Items
  | .one gap item after => .one (before.append gap) item.spread after
  | .more gap item after rest => .more (before.append gap) item.spread after (rest.spread .space)

/-- Members with a space more behind each comma and each colon, and with some white space in
front. -/
def Members.spread (before : Gap) : Members → Members
  | .one key gap value after =>
    .one ⟨before.append key.before, key.literal, key.after⟩ (Gap.space.append gap) value.spread
      after
  | .more key gap value after rest =>
    .more ⟨before.append key.before, key.literal, key.after⟩ (Gap.space.append gap) value.spread
      after (rest.spread .space)

end

theorem Items.text_spread (before : Gap) (items : Items) :
    (items.spread before).text = before.text ++ (items.spread .none).text := by
  cases items <;> simp [Items.spread, Items.text]

theorem Members.text_spread (before : Gap) (members : Members) :
    (members.spread before).text = before.text ++ (members.spread .none).text := by
  cases members <;> simp [Members.spread, Members.text, Key.text]

theorem Tree.spelled?_spread (tree : Tree) : tree.spread.spelled? = tree.spelled? := by
  cases tree <;> rfl

theorem Members.spelled?_spread (before : Gap) (members : Members) :
    (members.spread before).spelled? = members.spelled? := by
  cases members with
  | one key gap value after => exact value.spelled?_spread
  | more key gap value after rest => rfl

theorem Members.isWrapper_spread (before : Gap) (members : Members) :
    (members.spread before).IsWrapper ↔ members.IsWrapper := by
  cases members <;> rfl

mutual

/-- A tree has the same value with more spaces. -/
theorem Tree.value?_spread : (tree : Tree) → ∀ depth, tree.spread.value? depth = tree.value? depth
  | .null, _ | .bool _, _ | .number _, _ | .string _, _ => rfl
  | .emptyArray _, _ | .emptyObject _, _ => rfl
  | .array items, depth => by
    rw [Tree.spread, Tree.value?, Tree.value?, items.values?_spread .none (depth + 1)]
  | .object members, depth => by
    rw [Tree.spread, Tree.value?, Tree.value?, members.values?_spread .none (depth + 1) .empty,
      members.spelled?_spread]
    simp only [members.isWrapper_spread]

theorem Items.values?_spread (before : Gap) :
    (items : Items) → ∀ depth, (items.spread before).values? depth = items.values? depth
  | .one _ item _, depth => by
    rw [Items.spread, Items.values?, Items.values?, item.value?_spread depth]
  | .more _ item _ rest, depth => by
    rw [Items.spread, Items.values?, Items.values?, item.value?_spread depth,
      rest.values?_spread .space depth]

theorem Members.values?_spread (before : Gap) :
    (members : Members) → ∀ depth earlier,
      (members.spread before).values? depth earlier = members.values? depth earlier
  | .one _ _ value _, depth, earlier => by
    rw [Members.spread, Members.values?, Members.values?, value.value?_spread depth]
  | .more _ _ value _ rest, depth, earlier => by
    rw [Members.spread, Members.values?, Members.values?, value.value?_spread depth]
    simp only [rest.values?_spread .space depth]

end

end Grammar

namespace Spread

theorem spreadsTo_key (key : Key) :
    SpreadsTo key.text (key.text ++ [' ']) := by
  have colon := (spreadsTo_gap key.after).append spreadsTo_colon
  have spelled := (spreadsTo_gap key.before).append ((spreadsTo_literal key.literal).append colon)
  simpa [Key.text] using spelled

mutual

/-- The text of a tree is spread to the text of the tree with more spaces. -/
theorem spreadsTo_tree : (tree : Tree) → SpreadsTo tree.text tree.spread.text
  | .null => spreadsTo_of_plain (by simp [Tree.text])
  | .bool true => spreadsTo_of_plain (by simp [Tree.text])
  | .bool false => spreadsTo_of_plain (by simp [Tree.text])
  | .number token => spreadsTo_number token
  | .string literal => spreadsTo_literal literal
  | .emptyArray gap => spreadsTo_between (by decide) (by decide) (spreadsTo_gap gap)
  | .array items => spreadsTo_between (by decide) (by decide) (spreadsTo_items items)
  | .emptyObject gap => spreadsTo_between (by decide) (by decide) (spreadsTo_gap gap)
  | .object members => spreadsTo_between (by decide) (by decide) (spreadsTo_members members)

theorem spreadsTo_items : (items : Items) → SpreadsTo items.text (items.spread .none).text
  | .one gap item after =>
    (spreadsTo_gap gap).append ((spreadsTo_tree item).append (spreadsTo_gap after))
  | .more gap item after rest => by
    have tail := spreadsTo_comma.append (spreadsTo_items rest)
    rw [Items.spread, Items.text, Items.text, rest.text_spread]
    exact (spreadsTo_gap gap).append
      ((spreadsTo_tree item).append ((spreadsTo_gap after).append tail))

theorem spreadsTo_members :
    (members : Members) → SpreadsTo members.text (members.spread .none).text
  | .one key gap value after => by
    have spelled := (spreadsTo_key key).append
      ((spreadsTo_gap gap).append ((spreadsTo_tree value).append (spreadsTo_gap after)))
    rw [Members.spread, Members.text, Members.text]
    simpa [Key.text] using spelled
  | .more key gap value after rest => by
    have tail := spreadsTo_comma.append (spreadsTo_members rest)
    have ended := (spreadsTo_tree value).append ((spreadsTo_gap after).append tail)
    have spelled := (spreadsTo_key key).append ((spreadsTo_gap gap).append ended)
    rw [Members.spread, Members.text, Members.text, rest.text_spread]
    simpa [Key.text] using spelled

end

/-! ## Printed values -/

theorem spreadsTo_string (text : String) : SpreadsTo (Print.string text) (Print.string text) := by
  obtain ⟨literal, spelled, -⟩ := Print.exists_literal text
  rw [spelled]
  exact spreadsTo_literal literal

theorem spreadsTo_printed_number (number : Number) :
    SpreadsTo (Print.number number) (Print.number number) := by
  cases number with
  | integer value =>
    obtain ⟨token, text, -⟩ := Print.exists_token_integer value
    rw [text]
    exact spreadsTo_number token
  | double value =>
    rw [Print.number]
    rcases Print.double_cases value with ⟨token, text⟩ | text
    · rw [text]
      exact spreadsTo_number token
    · rw [text]
      exact spreadsTo_tree .null

theorem spreadsTo_separated {items wides : List (List Char)}
    (h : List.Forall₂ SpreadsTo items wides) :
    SpreadsTo (Print.separated .compact items) (Print.separated .spaced wides) := by
  induction h with
  | nil => exact .nil
  | cons first rest ih =>
    cases rest with
    | nil => exact first
    | cons second rest => exact (first.append spreadsTo_comma).append ih

theorem spreadsTo_member (key : String) {printed wide : List Char} (h : SpreadsTo printed wide) :
    SpreadsTo (Print.member .compact key printed) (Print.member .spaced key wide) :=
  ((spreadsTo_string key).append spreadsTo_colon).append h

mutual

/-- The compact text of a value is spread to its text with spaces. -/
theorem spreadsTo_print : (value : Value) → SpreadsTo (value.print .compact) (value.print .spaced)
  | .null => spreadsTo_tree .null
  | .bool true => spreadsTo_tree (.bool true)
  | .bool false => spreadsTo_tree (.bool false)
  | .number number => spreadsTo_printed_number number
  | .string text => spreadsTo_string text
  | .array items =>
    spreadsTo_between (by decide) (by decide) (spreadsTo_separated (forall₂_printItems items))
  | .object members =>
    spreadsTo_between (by decide) (by decide) (spreadsTo_separated (forall₂_printMembers members))

theorem forall₂_printItems : (items : List Value) →
    List.Forall₂ SpreadsTo (Value.printItems .compact items) (Value.printItems .spaced items)
  | [] => .nil
  | item :: items => .cons (spreadsTo_print item) (forall₂_printItems items)

theorem forall₂_printMembers : (members : List (String × Value)) →
    List.Forall₂ SpreadsTo (Value.printMembers .compact members)
      (Value.printMembers .spaced members)
  | [] => .nil
  | (key, value) :: members =>
    .cons (spreadsTo_member key (spreadsTo_print value)) (forall₂_printMembers members)

end

end Spread

/-- A text that is a tree means the same when it is spread. -/
theorem Value.ofText_spread (tree : Tree) (value : Value) :
    ofText (String.ofList (Spread.spread tree.text)) = .ok value ↔
      ofText (String.ofList tree.text) = .ok value := by
  rw [(Spread.spreadsTo_tree tree).eq, ofText, ofText, ← Document.bytes_bare,
    ← Document.bytes_bare, ofBytes_document_eq_ok_iff, ofBytes_document_eq_ok_iff, Document.bare,
    Document.bare, tree.value?_spread]

end SpanScore.Json
