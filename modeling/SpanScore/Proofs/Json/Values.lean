import SpanScore.Proofs.Json.Members
import SpanScore.Proofs.Json.Numbers

/-!
# The reader and the grammar

A tree has a value when its strings spell something, its numbers are in range, it is not nested too
deeply, and each of its wrappers holds a text that has a value.  The reader returns this value from
the text of the tree, whatever arrays and objects are open around it, and refuses a tree without
one.  It accepts no text that the scanner does not pass over, so whatever it reads is the value of
a tree.
-/

namespace SpanScore.Json

open Grammar

/-! ## The value of a tree -/

namespace Grammar

open Read (depthLimit)

/-- The key of the first member. -/
def Members.firstKey : Members → Literal
  | .one key _ _ _ => key.literal
  | .more key _ _ _ _ => key.literal

/-- Whether the first key makes a wrapper of the object. -/
def Members.IsWrapper (members : Members) : Prop :=
  members.firstKey.decode? = some Read.wrapperKey

instance : DecidablePred Members.IsWrapper :=
  fun members ↦ inferInstanceAs (Decidable (members.firstKey.decode? = some Read.wrapperKey))

/-- What a tree spells when it is a string. -/
def Tree.spelled? : Tree → Option String
  | .string literal => literal.decode?
  | _ => none

/-- What the value of the only member spells. -/
def Members.spelled? : Members → Option String
  | .one _ _ value _ => value.spelled?
  | .more _ _ _ _ _ => none

mutual

/-- The value of a tree with `depth` arrays and objects around it. -/
def Tree.value? (depth : Nat) : Tree → Option Value
  | .null => some .null
  | .bool value => some (.bool value)
  | .number number => number.value?.map Value.number
  | .string literal => literal.decode?.map Value.string
  | .emptyArray _ => if depthLimit ≤ depth then none else some (.array [])
  | .array items =>
    if depthLimit ≤ depth then none else (items.values? (depth + 1)).map Value.array
  | .emptyObject _ => if depthLimit ≤ depth then none else some (.object [])
  | .object members =>
    if depthLimit ≤ depth then none
    else if members.IsWrapper then members.spelled?.bind fun text ↦ (Value.ofText text).toOption
    else (members.values? (depth + 1) .empty).map fun members ↦ Value.object members.list

def Items.values? (depth : Nat) : Items → Option (List Value)
  | .one _ item _ => (item.value? depth).map fun value ↦ [value]
  | .more _ item _ rest =>
    (item.value? depth).bind fun value ↦ (rest.values? depth).map fun values ↦ value :: values

/-- The values of members behind earlier ones, a later value of a key replacing an earlier one. -/
def Members.values? (depth : Nat) (before : OrderedMembers) : Members → Option OrderedMembers
  | .one key _ value _ =>
    key.literal.decode?.bind fun name ↦
      (value.value? depth).map fun value ↦ before.insert name value
  | .more key _ value _ rest =>
    key.literal.decode?.bind fun name ↦
      (value.value? depth).bind fun value ↦
        rest.values? depth (before.insert name value)

end

end Grammar

namespace Read

/-! ## One step of the reader -/

theorem proceed_eq (value : Value) (frames : List Frame) (text : List Char) :
    proceed value frames text =
      match resume value frames text with
      | .error fault => .error fault
      | .ok (.finished complete rest) => .ok (complete, rest)
      | .ok (.next stack rest) => build stack rest := by
  rw [proceed]
  split <;> simp_all

theorem proceed_nil (value : Value) (text : List Char) :
    proceed value [] text = .ok (value, text) := by
  rw [proceed_eq]
  rfl

theorem build_of_whole {text after : List Char} {value : Value} {frames : List Frame}
    (h : head frames.length text = .ok (.whole value after)) :
    build frames text = proceed value frames after := by
  rw [build]
  split <;> simp_all

theorem build_of_opened {text inner : List Char} {frame : Frame} {frames : List Frame}
    (h : head frames.length text = .ok (.opened frame inner)) :
    build frames text = build (frame :: frames) inner := by
  rw [build]
  split <;> simp_all

theorem build_of_error {text : List Char} {fault : Fault} {frames : List Frame}
    (h : head frames.length text = .error fault) : build frames text = .error fault := by
  rw [build]
  split <;> simp_all

/-- A text in a wrapper is read as a text of its own. -/
theorem conclude_build (inner : String) :
    conclude (Utf8.encode inner) ⟨inner.toList, (Utf8.encode inner).length⟩
      (build [] inner.toList) = Value.ofText inner := by
  rw [Value.ofText, Value.ofBytes, readWhole, Utf8.decodeStart_encode]
  rfl

theorem build_of_wrapper {text after : List Char} {inner : String} {frames : List Frame}
    (h : head frames.length text = .ok (.wrapper inner after)) :
    build frames text =
      match Value.ofText inner with
      | .error error => .error (.inner error)
      | .ok value => (wrapperEnd after).bind (proceed value frames) := by
  rw [build]
  split
  · next failed => simp [h] at failed
  · next found => simp [h] at found
  · next found => simp [h] at found
  · next found rest same =>
    obtain ⟨rfl, rfl⟩ : inner = found ∧ after = rest := by simpa [h] using same
    dsimp only
    rw [conclude_build]
    cases Value.ofText inner with
    | error error => rfl
    | ok value =>
      dsimp only
      split
      · next failed => rw [failed]; rfl
      · next closed => rw [closed]; rfl

/-- A reading depends on its text only through the head of the text. -/
theorem build_congr {left right : List Char} (frames : List Frame)
    (h : head frames.length left = head frames.length right) :
    build frames left = build frames right := by
  cases found : head frames.length right with
  | error fault => rw [build_of_error found, build_of_error (h.trans found)]
  | ok found' =>
    cases found' with
    | whole value after => rw [build_of_whole found, build_of_whole (h.trans found)]
    | opened frame inner => rw [build_of_opened found, build_of_opened (h.trans found)]
    | wrapper inner after => rw [build_of_wrapper found, build_of_wrapper (h.trans found)]

@[simp] theorem build_skipSpace (frames : List Frame) (text : List Char) :
    build frames (skipSpace text) = build frames text := by
  apply build_congr
  rw [head, skipSpace_skipSpace, ← head]

@[simp] theorem build_gap_append (frames : List Frame) (gap : Gap) (text : List Char) :
    build frames (gap.text ++ text) = build frames text := by
  rw [← build_skipSpace, skipSpace_gap_append, build_skipSpace]

/-- Reads a key with its quotes and its colon. -/
def quoted (text : List Char) : Except Fault (String × List Char) :=
  match skipSpace text with
  | '"' :: name => key name
  | other => stop .keyExpected 1 other

theorem quoted_of_quote {text name : List Char} (h : skipSpace text = '"' :: name) :
    quoted text = key name := by
  rw [quoted, h]
  rfl

theorem toOption_quoted_of_ne {text : List Char} (h : ∀ name, skipSpace text ≠ '"' :: name) :
    (quoted text).toOption = none := by
  unfold quoted
  split
  · next name quote => exact absurd quote (h name)
  · rfl

theorem proceed_items_close (value : Value) (before : List Value) (outer : List Frame) (gap : Gap)
    (rest : List Char) :
    proceed value (.items before :: outer) (gap.text ++ ']' :: rest) =
      proceed (.array (value :: before).reverse) outer rest := by
  rw [proceed_eq, resume, skipSpace_gap_append, skipSpace_cons rfl, proceed_eq]
  rfl

theorem proceed_members_close (value : Value) (before : OrderedMembers) (key : String)
    (outer : List Frame) (gap : Gap) (rest : List Char) :
    proceed value (.members before key :: outer) (gap.text ++ '\x7d' :: rest) =
      proceed (.object (before.insert key value).list) outer rest := by
  rw [proceed_eq, resume, skipSpace_gap_append, skipSpace_cons rfl, proceed_eq]
  rfl

/-- Behind the comma of an array the next item is read. -/
theorem proceed_items_comma (value : Value) (before : List Value) (outer : List Frame) (gap : Gap)
    (items : Items) (rest : List Char) :
    proceed value (.items before :: outer) (gap.text ++ ',' :: (items.text ++ rest)) =
      build (.items (value :: before) :: outer) (items.text ++ rest) := by
  obtain ⟨char, chars, text, notClose⟩ := Scan.exists_cons_items items rest
  rw [← build_skipSpace, proceed_eq, resume, skipSpace_gap_append, skipSpace_cons rfl]
  simp only [text]
  split
  · next failed =>
    split at failed
    · next heq => exact absurd (List.cons.inj heq).1 notClose
    · simp at failed
  · next finished =>
    split at finished
    · simp [stop] at finished
    · simp at finished
  · next stack after continued =>
    split at continued
    · simp [stop] at continued
    · rw [Except.ok.injEq, Step.next.injEq] at continued
      rw [← continued.1, ← continued.2]

theorem resume_members_comma (value : Value) (before : OrderedMembers) (key : String)
    (outer : List Frame) (gap : Gap) (rest : List Char) :
    resume value (.members before key :: outer) (gap.text ++ ',' :: rest) =
      match skipSpace rest with
      | '"' :: name =>
        (Read.key name).map fun (next, after) ↦
          .next (.members (before.insert key value) next :: outer) after
      | '\x7d' :: after => stop .trailingComma 1 ('\x7d' :: after)
      | other => stop .nextKeyExpected 1 other := by
  rw [resume, skipSpace_gap_append, skipSpace_cons rfl]
  rfl

/-- Behind the comma of an object the next key is read. -/
theorem toOption_proceed_members_comma (value : Value) (before : OrderedMembers)
    (key : String) (outer : List Frame) (gap : Gap) (rest : List Char) :
    (proceed value (.members before key :: outer) (gap.text ++ ',' :: rest)).toOption =
      (quoted rest).toOption.bind fun (next, after) ↦
        (build (.members (before.insert key value) next :: outer) after).toOption := by
  have next := resume_members_comma value before key outer gap rest
  cases text : skipSpace rest with
  | nil =>
    rw [text] at next
    rw [proceed_eq, next, toOption_quoted_of_ne (by simp [text])]
    rfl
  | cons char chars =>
    rw [text] at next
    by_cases quote : char = '"'
    · subst quote
      change resume value _ _ = (Read.key chars).map _ at next
      rw [proceed_eq, next, quoted_of_quote text]
      cases Read.key chars <;> rfl
    · rw [toOption_quoted_of_ne (by simp [text, quote]), proceed_eq, next]
      by_cases close : char = '\x7d'
      · subst close
        rfl
      · have refused : resume value (.members before key :: outer) (gap.text ++ ',' :: rest) =
            stop .nextKeyExpected 1 (char :: chars) := by
          rw [next]
          split <;> simp_all
        rw [← next, refused]
        rfl

/-! ## Heads -/

/-- A value without items is read as it is, or refused. -/
theorem toOption_build_of_head {frames : List Frame} {text rest : List Char} {found : Option Value}
    (h : (head frames.length text).toOption = found.map (Head.whole · rest)) :
    (build frames text).toOption =
      found.bind fun value ↦ (proceed value frames rest).toOption := by
  cases found with
  | none =>
    obtain ⟨fault, read⟩ := exists_error_of_toOption h
    rw [build_of_error read]
    rfl
  | some value =>
    rw [build_of_whole (eq_ok_of_toOption h)]
    rfl

theorem toOption_map {α β : Type} (result : Except Fault α) (make : α → β) :
    (result.map make).toOption = result.toOption.map make := by
  cases result <;> rfl

theorem toOption_head_number (depth : Nat) (number : NumberToken) {rest : List Char}
    (ends : Scan.EndsNumber rest) :
    (head depth (number.text ++ rest)).toOption =
      (number.value?.map Value.number).map (Head.whole · rest) := by
  have read := Digits.toOption_number number ends
  have mapped : (Read.number number.negative (number.unsigned ++ rest)).toOption =
      (number.value?.map Value.number).map (Head.whole · rest) := by
    rw [Read.number, toOption_map, read, Option.map_map, Option.map_map]
    rfl
  obtain ⟨digit, others, unsigned, isDigit⟩ := Scan.exists_cons_unsigned number
  unfold NumberToken.text
  cases negative : number.negative with
  | true =>
    rw [negative] at mapped
    rw [if_pos rfl, head, List.cons_append, skipSpace_cons rfl]
    exact mapped
  | false =>
    rw [negative, unsigned, List.cons_append] at mapped
    rw [if_neg (by simp), unsigned, List.cons_append, head,
      skipSpace_cons (Scan.isSpace_of_isDigit isDigit)]
    split
    all_goals try
      next heq => exact absurd (List.cons.inj heq).1 (Scan.ne_of_isDigit isDigit rfl)
    · next heq => simp at heq
    · next heq =>
      obtain ⟨rfl, rfl⟩ := List.cons.inj heq
      rw [isDigit, if_pos rfl, mapped]

theorem head_quote (depth : Nat) (text : List Char) :
    head depth ('"' :: text) =
      (string text).map fun (text, after) ↦ .whole (.string text) after := by
  rw [head, skipSpace_cons rfl]
  rfl

theorem head_square (depth : Nat) (text : List Char) :
    head depth ('[' :: text) =
      if depthLimit ≤ depth then stop .tooDeep 1 ('[' :: text)
      else match skipSpace text with
        | [] => stop .firstItemExpected 1 []
        | ']' :: after => .ok (.whole (.array []) after)
        | item => .ok (.opened (.items []) item) := by
  rw [head, skipSpace_cons rfl]
  rfl

theorem head_curly (depth : Nat) (text : List Char) :
    head depth ('\x7b' :: text) =
      if depthLimit ≤ depth then stop .tooDeep 1 ('\x7b' :: text)
      else match skipSpace text with
        | '\x7d' :: after => .ok (.whole (.object []) after)
        | '"' :: name => (key name).bind fun (key, after) ↦ enter key after
        | other => stop .keyExpected 1 other := by
  rw [head, skipSpace_cons rfl]
  rfl

theorem toOption_head_string (depth : Nat) (literal : Literal) (rest : List Char) :
    (head depth ('"' :: (literal.body ++ rest))).toOption =
      (literal.decode?.map Value.string).map (Head.whole · rest) := by
  rw [head_quote, toOption_map, toOption_string_body, Option.map_map, Option.map_map]
  rfl

theorem toOption_head_emptyArray (depth : Nat) (gap : Gap) (rest : List Char) :
    (head depth ('[' :: (gap.text ++ ']' :: rest))).toOption =
      (if depthLimit ≤ depth then none else some (.array [])).map (Head.whole · rest) := by
  rw [head_square, skipSpace_gap_append, skipSpace_cons rfl]
  split <;> rfl

theorem toOption_head_emptyObject (depth : Nat) (gap : Gap) (rest : List Char) :
    (head depth ('\x7b' :: (gap.text ++ '\x7d' :: rest))).toOption =
      (if depthLimit ≤ depth then none else some (.object [])).map (Head.whole · rest) := by
  rw [head_curly, skipSpace_gap_append, skipSpace_cons rfl]
  split <;> rfl

/-- Within the limit the bracket of an array with items opens it. -/
theorem toOption_build_array (frames : List Frame) (items : Items) (rest : List Char) :
    (build frames ('[' :: (items.text ++ rest))).toOption =
      if depthLimit ≤ frames.length then none
      else (build (.items [] :: frames) (items.text ++ rest)).toOption := by
  obtain ⟨char, chars, text, notClose⟩ := Scan.exists_cons_items items rest
  have start := head_square frames.length (items.text ++ rest)
  by_cases deep : depthLimit ≤ frames.length
  · rw [if_pos deep] at start ⊢
    rw [build_of_error start]
    rfl
  · have opened : head frames.length ('[' :: (items.text ++ rest)) =
        .ok (.opened (.items []) (skipSpace (items.text ++ rest))) := by
      rw [start, if_neg deep, text]
      split
      · next heq => simp at heq
      · next heq => exact absurd (List.cons.inj heq).1 notClose
      · rfl
    rw [if_neg deep, build_of_opened opened, build_skipSpace]

/-- What is read of an object from behind its first key on. -/
def behindKey (frames : List Frame) (key : String) (text : List Char) :
    Option (Value × List Char) :=
  if key = wrapperKey then
    (wrapped text).toOption.bind fun (inner, after) ↦
      (Value.ofText inner).toOption.bind fun value ↦
        (wrapperEnd after).toOption.bind fun rest ↦ (proceed value frames rest).toOption
  else (build (.members .empty key :: frames) text).toOption

theorem toOption_build_of_enter {frames : List Frame} {text after : List Char} {key : String}
    (h : head frames.length text = enter key after) :
    (build frames text).toOption = behindKey frames key after := by
  unfold enter at h
  unfold behindKey
  split at h
  · next wraps =>
    rw [if_pos wraps]
    cases read : wrapped after with
    | error fault =>
      rw [read] at h
      rw [build_of_error h]
      rfl
    | ok found =>
      obtain ⟨inner, behind⟩ := found
      rw [read] at h
      rw [build_of_wrapper h]
      simp only [Except.toOption, Option.bind_some]
      cases Value.ofText inner with
      | error error => rfl
      | ok value => cases wrapperEnd behind <;> rfl
  · next opens => rw [if_neg opens, build_of_opened h]

/-- Within the limit the brace of an object with members leads to its first key. -/
theorem toOption_build_object (frames : List Frame) {text : List Char}
    (notClosed : ∀ rest, skipSpace text ≠ '\x7d' :: rest) :
    (build frames ('\x7b' :: text)).toOption =
      if depthLimit ≤ frames.length then none
      else (quoted text).toOption.bind fun (key, after) ↦ behindKey frames key after := by
  have start := head_curly frames.length text
  by_cases deep : depthLimit ≤ frames.length
  · rw [if_pos deep] at start ⊢
    rw [build_of_error start]
    rfl
  · rw [if_neg deep] at start ⊢
    split at start
    · next closed => exact absurd closed (notClosed _)
    · next name quote =>
      rw [quoted_of_quote quote]
      cases read : key name with
      | error fault =>
        rw [read] at start
        rw [build_of_error start]
        rfl
      | ok found =>
        rw [read] at start
        exact toOption_build_of_enter start
    · next other _ noQuote =>
      rw [build_of_error start, toOption_quoted_of_ne noQuote]
      rfl

/-! ## Keys -/

/-- A key is read as what it spells, and refused where it spells nothing. -/
theorem toOption_quoted (key : Key) (rest : List Char) :
    (quoted (key.text ++ rest)).toOption = key.literal.decode?.map (·, rest) := by
  rw [quoted, Key.text, List.append_assoc, skipSpace_gap_append, List.cons_append,
    skipSpace_cons rfl]
  simp only [List.append_assoc, List.singleton_append]
  have read := toOption_string_body key.literal (key.after.text ++ ':' :: rest)
  cases decoded : key.literal.decode? with
  | none =>
    obtain ⟨fault, refused⟩ := exists_error_of_body (key.after.text ++ ':' :: rest) decoded
    simp only [Read.key, refused]
    rfl
  | some name =>
    have found := string_body (key.after.text ++ ':' :: rest) decoded
    simp only [Read.key, found, bind, Except.bind, colon_text]
    rfl

/-- The members of an object start with the quote of a key. -/
theorem exists_quote_members (members : Members) (rest : List Char) :
    ∃ name, skipSpace (members.text ++ rest) = '"' :: name := by
  have start (key : Key) (tail : List Char) :
      skipSpace (key.text ++ tail) =
        '"' :: (key.literal.body ++ (key.after.text ++ [':']) ++ tail) := by
    rw [Key.text, List.append_assoc, skipSpace_gap_append, List.cons_append, skipSpace_cons rfl]
  cases members with
  | one key before value after => exact ⟨_, by rw [Members.text, List.append_assoc, start]⟩
  | more key before value after more => exact ⟨_, by rw [Members.text, List.append_assoc, start]⟩

theorem exists_quoted_members (members : Members) (rest : List Char) :
    ∃ after, (quoted (members.text ++ rest)).toOption =
      members.firstKey.decode?.map (·, after) := by
  cases members with
  | one key before value after =>
    exact ⟨_, by rw [Members.text, List.append_assoc, toOption_quoted]; rfl⟩
  | more key before value after more =>
    exact ⟨_, by rw [Members.text, List.append_assoc, toOption_quoted]; rfl⟩

/-! ## Wrappers -/

theorem head?_text_ne_quote {tree : Tree} (h : ∀ literal, tree ≠ .string literal) :
    tree.text.head? ≠ some '"' := by
  cases tree with
  | bool value => cases value <;> simp [Tree.text]
  | number number =>
    obtain ⟨digit, others, unsigned, isDigit⟩ := Scan.exists_cons_unsigned number
    rw [Tree.text, NumberToken.text]
    split
    · simp
    · simpa [unsigned] using Scan.ne_of_isDigit isDigit rfl
  | string literal => exact absurd rfl (h literal)
  | _ => simp [Tree.text]

/-- In a wrapper a string is taken as what it spells, and no other value is. -/
theorem toOption_wrapped_text (gap : Gap) (tree : Tree) (rest : List Char) :
    (wrapped (gap.text ++ (tree.text ++ rest))).toOption = tree.spelled?.map (·, rest) := by
  rw [wrapped, skipSpace_gap_append, Scan.skipSpace_tree_append]
  by_cases isString : ∃ literal, tree = .string literal
  · obtain ⟨literal, rfl⟩ := isString
    exact toOption_string_body literal rest
  · have noQuote := head?_text_ne_quote (not_exists.1 isString)
    have unspelled : tree.spelled? = none := by
      cases tree with
      | string literal => exact absurd ⟨literal, rfl⟩ isString
      | _ => rfl
    obtain ⟨char, chars, text, -⟩ := Scan.exists_cons_tree tree
    rw [text] at noQuote ⊢
    rw [unspelled]
    split
    · rfl
    · next quote => simp_all
    · rfl

theorem wrapperEnd_close (gap : Gap) (rest : List Char) :
    wrapperEnd (gap.text ++ '\x7d' :: rest) = .ok rest := by
  rw [wrapperEnd, skipSpace_gap_append, skipSpace_cons rfl]
  rfl

theorem toOption_wrapperEnd_comma (gap : Gap) (rest : List Char) :
    (wrapperEnd (gap.text ++ ',' :: rest)).toOption = none := by
  rw [wrapperEnd, skipSpace_gap_append, skipSpace_cons rfl]
  rfl

/-- A wrapper is read as the value of the text in its only member. -/
theorem toOption_quoted_wrapper (frames : List Frame) (rest : List Char) {members : Members}
    (wraps : members.IsWrapper) :
    ((quoted (members.text ++ '\x7d' :: rest)).toOption.bind fun (key, after) ↦
        behindKey frames key after) =
      members.spelled?.bind fun text ↦ (Value.ofText text).toOption.bind fun value ↦
        (proceed value frames rest).toOption := by
  cases members with
  | one key gap value after =>
    have decoded : key.literal.decode? = some wrapperKey := wraps
    rw [Members.text, List.append_assoc, toOption_quoted, decoded, Option.map_some,
      Option.bind_some]
    dsimp only
    rw [behindKey, if_pos rfl, List.append_assoc, List.append_assoc, toOption_wrapped_text,
      Option.bind_map]
    simp only [Function.comp_def, wrapperEnd_close]
    rfl
  | more key gap value after more =>
    have decoded : key.literal.decode? = some wrapperKey := wraps
    rw [Members.text, List.append_assoc, toOption_quoted, decoded, Option.map_some,
      Option.bind_some]
    dsimp only
    rw [behindKey, if_pos rfl, List.append_assoc, List.append_assoc, List.append_assoc,
      List.cons_append, toOption_wrapped_text, Option.bind_map]
    simp only [Function.comp_def, toOption_wrapperEnd_comma, Option.bind_none, Option.bind_fun_none]
    rfl

/-- Where the first key makes no wrapper, it is the key of an ordinary member. -/
theorem toOption_quoted_members (frames : List Frame) (rest : List Char) {members : Members}
    (plain : ¬members.IsWrapper) :
    ((quoted (members.text ++ rest)).toOption.bind fun (key, after) ↦
        behindKey frames key after) =
      (quoted (members.text ++ rest)).toOption.bind fun (key, after) ↦
        (build (.members .empty key :: frames) after).toOption := by
  obtain ⟨after, read⟩ := exists_quoted_members members rest
  rw [read]
  cases decoded : members.firstKey.decode? with
  | none => rfl
  | some name =>
    have other : name ≠ wrapperKey := fun same ↦ plain (decoded.trans (congrArg some same))
    rw [Option.map_some, Option.bind_some, Option.bind_some]
    exact if_neg other

/-! ## Trees are read as their values -/

mutual

/-- From the text of a tree its value is read, and a tree without a value is refused. -/
theorem toOption_build_text (frames : List Frame) {rest : List Char} (ends : Scan.EndsNumber rest) :
    (tree : Tree) →
      (build frames (tree.text ++ rest)).toOption =
        (tree.value? frames.length).bind fun value ↦ (proceed value frames rest).toOption
  | .null => @toOption_build_of_head _ _ _ (some .null) rfl
  | .bool true => @toOption_build_of_head _ _ _ (some (.bool true)) rfl
  | .bool false => @toOption_build_of_head _ _ _ (some (.bool false)) rfl
  | .number number => by
    rw [Tree.text, Tree.value?]
    exact toOption_build_of_head (toOption_head_number frames.length number ends)
  | .string literal => by
    rw [Tree.text, Tree.value?]
    exact toOption_build_of_head (toOption_head_string frames.length literal rest)
  | .emptyArray gap => by
    rw [Tree.text, Tree.value?, List.cons_append, List.append_assoc, List.singleton_append]
    exact toOption_build_of_head (toOption_head_emptyArray frames.length gap rest)
  | .emptyObject gap => by
    rw [Tree.text, Tree.value?, List.cons_append, List.append_assoc, List.singleton_append]
    exact toOption_build_of_head (toOption_head_emptyObject frames.length gap rest)
  | .array items => by
    have inner := toOption_build_items frames [] rest items
    rw [Tree.text, Tree.value?, List.cons_append, List.append_assoc, List.singleton_append,
      toOption_build_array, inner]
    split
    · rfl
    · rw [Option.bind_map]
      rfl
  | .object members => by
    have inner := toOption_build_members frames .empty rest members
    obtain ⟨name, quote⟩ := exists_quote_members members ('\x7d' :: rest)
    rw [Tree.text, Tree.value?, List.cons_append, List.append_assoc, List.singleton_append,
      toOption_build_object frames (by simp [quote])]
    split
    · rfl
    · split
      · next wraps =>
        rw [toOption_quoted_wrapper frames rest wraps, Option.bind_assoc]
      · next plain =>
        rw [toOption_quoted_members frames _ plain, inner, Option.bind_map]
        rfl

/-- From the text of items behind earlier ones their values are read. -/
theorem toOption_build_items (frames : List Frame) (before : List Value) (rest : List Char) :
    (items : Items) →
      (build (.items before :: frames) (items.text ++ ']' :: rest)).toOption =
        (items.values? (frames.length + 1)).bind fun values ↦
          (proceed (.array (before.reverse ++ values)) frames rest).toOption
  | .one gap item after => by
    have ends : Scan.EndsNumber (after.text ++ ']' :: rest) :=
      (Scan.endsNumber_cons (by decide)).gap_append after
    rw [Items.text, List.append_assoc, List.append_assoc, build_gap_append,
      toOption_build_text (.items before :: frames) ends item, Items.values?, Option.bind_map]
    simp only [proceed_items_close, List.reverse_cons]
    rfl
  | .more gap item after more => by
    have ends : Scan.EndsNumber (after.text ++ ',' :: (more.text ++ ']' :: rest)) :=
      (Scan.endsNumber_cons (by decide)).gap_append after
    have others := fun value ↦ toOption_build_items frames (value :: before) rest more
    rw [Items.text, List.append_assoc, List.append_assoc, List.append_assoc, List.cons_append,
      build_gap_append, toOption_build_text (.items before :: frames) ends item, Items.values?,
      Option.bind_assoc]
    simp only [proceed_items_comma, others, Option.bind_map, List.reverse_cons, List.append_assoc,
      List.singleton_append]
    rfl

/-- From the text of members behind earlier ones their values are read, key by key. -/
theorem toOption_build_members (frames : List Frame) (before : OrderedMembers)
    (rest : List Char) :
    (members : Members) →
      ((quoted (members.text ++ '\x7d' :: rest)).toOption.bind fun (key, inner) ↦
          (build (.members before key :: frames) inner).toOption) =
        (members.values? (frames.length + 1) before).bind fun all ↦
          (proceed (.object all.list) frames rest).toOption
  | .one key gap value after => by
    have ends : Scan.EndsNumber (after.text ++ '\x7d' :: rest) :=
      (Scan.endsNumber_cons (by decide)).gap_append after
    have read := fun name ↦ toOption_build_text (.members before name :: frames) ends value
    rw [Members.text, List.append_assoc, toOption_quoted, Option.bind_map, Members.values?,
      Option.bind_assoc]
    refine congrArg _ (funext fun name ↦ ?_)
    simp only [Function.comp_def, List.append_assoc, build_gap_append, read,
      proceed_members_close, Option.bind_map, List.length_cons]
  | .more key gap value after more => by
    have ends : Scan.EndsNumber (after.text ++ ',' :: (more.text ++ '\x7d' :: rest)) :=
      (Scan.endsNumber_cons (by decide)).gap_append after
    have read := fun name ↦ toOption_build_text (.members before name :: frames) ends value
    have others := fun all ↦ toOption_build_members frames all rest more
    rw [Members.text, List.append_assoc, toOption_quoted, Option.bind_map, Members.values?,
      Option.bind_assoc]
    refine congrArg _ (funext fun name ↦ ?_)
    simp only [Function.comp_apply, List.append_assoc, List.cons_append, build_gap_append, read,
      toOption_proceed_members_comma, others, Option.bind_assoc, List.length_cons]

end

/-! ## Whatever is read is passed over by the scanner -/

/-- The bracket of an array or object that is being read. -/
def Frame.bracket : Frame → Scan.Bracket
  | items _ => .square
  | members _ _ => .curly

/-- Whether the scanner finds the head of a value as the reader does.  It takes a wrapper for an
object with a string. -/
def Head.ScannedAs (result : Except Fault Scan.Head) : Head → Prop
  | whole _ rest => result = .ok (.whole rest)
  | opened frame rest => result = .ok (.opened frame.bracket rest)
  | wrapper _ rest =>
    ∃ string, result = .ok (.opened .curly string) ∧ Scan.head string = .ok (.whole rest)

/-- What is left of a scan behind a step of the reader. -/
def Step.scanned : Step → Except Fault (List Char)
  | finished _ rest => .ok rest
  | next frames rest => Scan.skip (frames.map Frame.bracket) rest

theorem skipString_of_string {text rest : List Char} {name : String}
    (h : string text = .ok (name, rest)) : Scan.skipString text = .ok rest := by
  obtain ⟨literal, rfl, -⟩ := exists_literal h
  exact Scan.skipString_body literal rest

theorem skipKey_of_key {name rest : List Char} {found : String} (h : key name = .ok (found, rest))
    {text : List Char} (quote : skipSpace text = '"' :: name) : Scan.skipKey text = .ok rest := by
  unfold key at h
  cases read : string name with
  | error fault => simp [read, bind, Except.bind] at h
  | ok pair =>
    simp only [read, bind, Except.bind] at h
    cases behind : colon pair.2 with
    | error fault => simp [behind] at h
    | ok after =>
      simp only [behind, pure, Except.pure, Except.ok.injEq, Prod.mk.injEq] at h
      obtain ⟨gap, text_eq⟩ := exists_gap_of_colon behind
      unfold Scan.skipKey
      rw [quote]
      simp only [skipString_of_string read, bind, Except.bind, text_eq, skipSpace_gap_append,
        skipSpace_cons (show isSpace ':' = false from rfl), h.2]

theorem scannedAs_number {negative : Bool} {text : List Char} {found : Head}
    (h : Read.number negative text = .ok found) :
    found.ScannedAs (Scan.Head.whole <$> Scan.skipNumber text) := by
  unfold Read.number at h
  cases read : Digits.number negative text with
  | error fault => simp [read, Except.map] at h
  | ok pair =>
    simp only [read, Except.map, Except.ok.injEq] at h
    rw [Digits.skipNumber_of_number read, ← h]
    rfl

theorem scannedAs_word {value : Value} {letters text : List Char} {found : Head}
    (h : word value letters text = .ok found) :
    found.ScannedAs (Scan.Head.whole <$> skipWord letters text) := by
  unfold word at h
  cases read : skipWord letters text with
  | error fault => simp [read, Except.map] at h
  | ok rest =>
    simp only [read, Except.map, Except.ok.injEq] at h
    rw [← h]
    rfl

theorem scannedAs_string {text : List Char} {found : Head}
    (h : (string text).map (fun (text, after) ↦ Head.whole (.string text) after) = .ok found) :
    found.ScannedAs (Scan.Head.whole <$> Scan.skipString text) := by
  cases read : string text with
  | error fault => simp [read, Except.map] at h
  | ok pair =>
    simp only [read, Except.map, Except.ok.injEq] at h
    rw [skipString_of_string read, ← h]
    rfl

/-- What the reader finds behind the bracket of an array. -/
theorem scannedAs_square {text rest : List Char} {found : Head}
    (behind : skipSpace text = '[' :: rest)
    (h : (match skipSpace rest with
      | [] => stop .firstItemExpected 1 []
      | ']' :: after => .ok (.whole (.array []) after)
      | item => .ok (.opened (.items []) item) : Except Fault Head) = .ok found) :
    found.ScannedAs (Scan.head text) := by
  generalize inner : skipSpace rest = inside at h
  split at h
  · simp [stop] at h
  · rw [Except.ok.injEq] at h
    rw [Scan.head_square behind, inner, ← h]
    rfl
  · next notEmpty notClose =>
    rw [Except.ok.injEq] at h
    rw [Scan.head_square behind, inner, ← h]
    split
    · exact absurd rfl notEmpty
    · exact absurd rfl (notClose _)
    · rfl

/-- What the reader finds behind the first key of an object. -/
theorem scannedAs_enter {key : String} {text : List Char} {found : Head}
    (h : enter key text = .ok found) : found.ScannedAs (.ok (.opened .curly text)) := by
  unfold enter at h
  split at h
  · cases read : wrapped text with
    | error fault => simp [read, Except.map] at h
    | ok pair =>
      simp only [read, Except.map, Except.ok.injEq] at h
      unfold wrapped at read
      split at read
      · simp [stop] at read
      · next quote =>
        rw [← h]
        refine ⟨text, rfl, ?_⟩
        rw [Scan.head, quote]
        exact congrArg (Scan.Head.whole <$> ·) (skipString_of_string read)
      · simp at read
  · rw [Except.ok.injEq] at h
    rw [← h]
    rfl

/-- What the reader finds behind the brace of an object. -/
theorem scannedAs_curly {text rest : List Char} {found : Head}
    (behind : skipSpace text = '\x7b' :: rest)
    (h : (match skipSpace rest with
      | '\x7d' :: after => .ok (.whole (.object []) after)
      | '"' :: name => (key name).bind fun (key, after) ↦ enter key after
      | other => stop .keyExpected 1 other : Except Fault Head) = .ok found) :
    found.ScannedAs (Scan.head text) := by
  generalize inner : skipSpace rest = inside at h
  split at h
  · rw [Except.ok.injEq] at h
    rw [Scan.head_curly behind, inner, ← h]
    rfl
  · next name =>
    cases read : key name with
    | error fault => simp [read, Except.bind] at h
    | ok pair =>
      have skipped := skipKey_of_key read inner
      simp only [read, Except.bind] at h
      rw [← Scan.skipKey_skipSpace, inner] at skipped
      rw [Scan.head_curly behind, inner]
      change found.ScannedAs (Scan.Head.opened .curly <$> Scan.skipKey ('"' :: name))
      rw [skipped]
      exact scannedAs_enter h
  · simp [stop] at h

/-- Where the reader finds the head of a value, so does the scanner. -/
theorem scannedAs_head {depth : Nat} {text : List Char} {found : Head}
    (h : head depth text = .ok found) : found.ScannedAs (Scan.head text) := by
  unfold head at h
  generalize behind : skipSpace text = start at h
  split at h
  · simp [stop] at h
  · rw [Scan.head, behind]
    exact scannedAs_word h
  · rw [Scan.head, behind]
    exact scannedAs_word h
  · rw [Scan.head, behind]
    exact scannedAs_word h
  · rw [Scan.head, behind]
    exact scannedAs_string h
  · rw [Scan.head, behind]
    exact scannedAs_number h
  · split at h
    · simp [stop] at h
    · exact scannedAs_square behind h
  · split at h
    · simp [stop] at h
    · exact scannedAs_curly behind h
  · next char rest _ _ _ _ _ _ _ =>
    split at h
    · next isDigit =>
      rw [Scan.head_digit behind isDigit]
      exact scannedAs_number h
    · simp [stop] at h

/-- Where the reader takes a step behind a value, so does the scanner. -/
theorem proceed_of_resume {value : Value} {frames : List Frame} {text : List Char} {step : Step}
    (h : resume value frames text = .ok step) :
    Scan.proceed (frames.map Frame.bracket) text = step.scanned := by
  fun_induction resume value frames text with
  | case1 value text =>
    rw [Except.ok.injEq] at h
    rw [← h]
    rfl
  | case2 => simp [stop] at h
  | case3 value before outer text after comma _ =>
    rw [Except.ok.injEq] at h
    obtain ⟨gap, text_eq⟩ := exists_gap text
    rw [text_eq, comma, ← h]
    change Scan.proceed (.square :: outer.map Frame.bracket) _ = _
    rw [Scan.proceed_square_comma, ← Scan.skip_skipSpace]
    rfl
  | case4 value before outer text after close ih =>
    obtain ⟨gap, text_eq⟩ := exists_gap text
    rw [text_eq, close, ← ih h]
    exact Scan.proceed_square_close _ gap after
  | case5 => simp [stop] at h
  | case6 value before key outer text members after comma name quote =>
    obtain ⟨gap, text_eq⟩ := exists_gap text
    cases read : Read.key name with
    | error fault => simp [read, Except.map] at h
    | ok pair =>
      simp only [read, Except.map, Except.ok.injEq] at h
      rw [text_eq, comma, ← h]
      change Scan.proceed (.curly :: outer.map Frame.bracket) _ = _
      rw [Scan.proceed_curly_comma, skipKey_of_key read quote]
      rfl
  | case7 => simp [stop] at h
  | case8 => simp [stop] at h
  | case9 value before key outer text members after close ih =>
    obtain ⟨gap, text_eq⟩ := exists_gap text
    rw [text_eq, close, ← ih h]
    exact Scan.proceed_curly_close _ gap after
  | case10 => simp [stop] at h

theorem proceed_of_wrapperEnd {brackets : List Scan.Bracket} {text rest : List Char}
    (h : wrapperEnd text = .ok rest) :
    Scan.proceed (.curly :: brackets) text = Scan.proceed brackets rest := by
  obtain ⟨gap, text_eq⟩ := exists_gap text
  unfold wrapperEnd at h
  split at h
  · next close =>
    rw [Except.ok.injEq] at h
    rw [text_eq, close, Scan.proceed_curly_close, h]
  · simp [stop] at h
  · simp [stop] at h

/-- What holds of each way of reading a value holds of all values that are read: `motive` of a text
with arrays and objects open around it, and `behind` of a value with what is left of them. -/
theorem build_induction (motive : List Frame → List Char → Value → List Char → Prop)
    (behind : Value → List Frame → List Char → Value → List Char → Prop)
    (whole : ∀ {frames text value after complete rest},
      head frames.length text = .ok (.whole value after) →
      behind value frames after complete rest → motive frames text complete rest)
    (opened : ∀ {frames text frame inner value rest},
      head frames.length text = .ok (.opened frame inner) →
      motive (frame :: frames) inner value rest → motive frames text value rest)
    (wrapper : ∀ {frames text inner after value left closed complete rest},
      head frames.length text = .ok (.wrapper inner after) → wrapperEnd after = .ok closed →
      motive [] inner.toList value left → behind value frames closed complete rest →
      motive frames text complete rest)
    (finished : ∀ {value frames text complete rest},
      resume value frames text = .ok (.finished complete rest) →
      behind value frames text complete rest)
    (next : ∀ {value frames text stack after complete rest},
      resume value frames text = .ok (.next stack after) → motive stack after complete rest →
      behind value frames text complete rest)
    {frames : List Frame} {text rest : List Char} {value : Value}
    (h : build frames text = .ok (value, rest)) : motive frames text value rest := by
  revert value rest
  refine build.induct
    (fun frames text ↦ ∀ {rest value}, build frames text = .ok (value, rest) →
      motive frames text value rest)
    (fun value frames text ↦ ∀ {rest complete}, proceed value frames text = .ok (complete, rest) →
      behind value frames text complete rest)
    ?error ?whole ?opened ?invalid ?unclosed ?wrapper ?stopped ?finished ?next frames text
  case error =>
    intro frames text fault refused rest value h
    simp [build_of_error refused] at h
  case whole =>
    intro frames text value after found ih rest complete h
    exact whole found (ih (build_of_whole found ▸ h))
  case opened =>
    intro frames text frame inner found ih rest value h
    exact opened found (ih (build_of_opened found ▸ h))
  case invalid =>
    intro frames text inner after found bytes error refused _ rest value h
    rw [build_of_wrapper found, ← conclude_build, refused] at h
    cases h
  case unclosed =>
    intro frames text inner after found bytes value read fault unclosed _ rest complete h
    rw [build_of_wrapper found, ← conclude_build, read, unclosed] at h
    cases h
  case wrapper =>
    intro frames text inner after found bytes value read rest closed inside ih left complete h
    obtain ⟨-, gap, readWhole⟩ := conclude_eq_ok_iff.1 read
    rw [build_of_wrapper found, ← conclude_build, read, closed] at h
    exact wrapper found closed (inside readWhole) (ih h)
  case stopped =>
    intro value frames text fault refused rest complete h
    rw [proceed_eq, refused] at h
    cases h
  case finished =>
    intro value frames text complete after ended rest found h
    rw [proceed_eq, ended, Except.ok.injEq, Prod.mk.injEq] at h
    obtain ⟨rfl, rfl⟩ := h
    exact finished ended
  case next =>
    intro value frames text stack after continued ih rest complete h
    rw [proceed_eq, continued] at h
    exact next continued (ih h)

/-- What is read as a value is passed over, with all that is open around it. -/
theorem skip_of_build {frames : List Frame} {text rest : List Char} {value : Value}
    (h : build frames text = .ok (value, rest)) :
    Scan.skip (frames.map Frame.bracket) text = .ok rest := by
  refine build_induction
    (fun frames text _ rest ↦ Scan.skip (frames.map Frame.bracket) text = .ok rest)
    (fun _ frames text _ rest ↦ Scan.proceed (frames.map Frame.bracket) text = .ok rest)
    ?whole ?opened ?wrapper ?finished ?next h
  case whole =>
    intro frames text value after complete rest found passed
    exact (Scan.skip_of_whole _ (scannedAs_head found)).trans passed
  case opened =>
    intro frames text frame inner value rest found passed
    exact (Scan.skip_of_opened _ (scannedAs_head found)).trans passed
  case wrapper =>
    intro frames text inner after value left closed complete rest found close _ passed
    obtain ⟨string, opens, stringPassed⟩ := scannedAs_head found
    rw [Scan.skip_of_opened _ opens, Scan.skip_of_whole _ stringPassed, proceed_of_wrapperEnd close]
    exact passed
  case finished =>
    intro value frames text complete rest ended
    exact proceed_of_resume ended
  case next =>
    intro value frames text stack after complete rest continued passed
    exact (proceed_of_resume continued).trans passed

end Read

/-! ## Whole values -/

/-- A text is read as the value of its tree. -/
theorem Read.toOption_value_text (before after : Gap) (tree : Tree) :
    (Read.value (before.text ++ (tree.text ++ after.text))).toOption =
      (tree.value? 0).map (·, after.text) := by
  have ends : Scan.EndsNumber after.text := by
    have blank := Scan.endsNumber_nil.gap_append after
    rwa [List.append_nil] at blank
  rw [Read.value, Read.build_gap_append, Read.toOption_build_text [] ends]
  simp only [Read.proceed_nil]
  cases tree.value? 0 <;> rfl

/-- What is read of a text is the value of its tree, and what is left the white space behind it. -/
theorem Read.value_text_eq_ok_iff {before after : Gap} {tree : Tree} {value : Value}
    {rest : List Char} :
    Read.value (before.text ++ (tree.text ++ after.text)) = .ok (value, rest) ↔
      tree.value? 0 = some value ∧ rest = after.text := by
  have ok_iff : Read.value (before.text ++ (tree.text ++ after.text)) = .ok (value, rest) ↔
      (Read.value (before.text ++ (tree.text ++ after.text))).toOption = some (value, rest) := by
    cases Read.value (before.text ++ (tree.text ++ after.text)) <;> simp [Except.toOption]
  rw [ok_iff, Read.toOption_value_text, Option.map_eq_some_iff]
  constructor
  · rintro ⟨found, denoted, same⟩
    obtain ⟨rfl, rfl⟩ := Prod.mk.inj same
    exact ⟨denoted, rfl⟩
  · rintro ⟨denoted, rfl⟩
    exact ⟨value, denoted, rfl⟩

/-- A value is read exactly from the documents whose tree has that value. -/
theorem Value.ofBytes_ok_iff_document {bytes : List UInt8} {value : Value} :
    Value.ofBytes bytes = .ok value ↔
      ∃ document : Document, bytes = document.bytes ∧ document.tree.value? 0 = some value := by
  rw [Value.ofBytes, readWhole_eq_ok_iff]
  constructor
  · rintro ⟨text, after, rfl, whole⟩
    obtain ⟨before, tree, tail, rfl, closes⟩ := Scan.exists_tree (Read.skip_of_build whole)
    change tail = after.text at closes
    rw [closes, Read.value_text_eq_ok_iff] at whole
    exact ⟨⟨before, tree, after⟩, by rw [closes]; rfl, whole.1⟩
  · rintro ⟨document, rfl, denoted⟩
    exact ⟨document.text, document.after, rfl, Read.value_text_eq_ok_iff.2 ⟨denoted, rfl⟩⟩

/-- Whichever tree a text is taken apart into, the tree has the value that is read. -/
theorem Value.ofBytes_document_eq_ok_iff {document : Document} {value : Value} :
    Value.ofBytes document.bytes = .ok value ↔ document.tree.value? 0 = some value := by
  constructor
  · intro h
    obtain ⟨text, after, bytes_eq, whole⟩ := readWhole_eq_ok_iff.1 h
    obtain rfl := String.ofList_inj.1 (Utf8.encode_injective bytes_eq)
    exact (Read.value_text_eq_ok_iff.1 whole).1
  · intro denoted
    exact Value.ofBytes_ok_iff_document.2 ⟨document, rfl, denoted⟩

end SpanScore.Json
