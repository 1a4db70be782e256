import SpanScore.Proofs.Json.Tokens

/-!
# The scanner and the grammar

The scanner passes over the text of every tree of values, whatever brackets are open around it, and
whatever it passes over is the text of such a tree.  Behind a value it goes on with the brackets
that are still open: `proceed` is that part of a scan, and `Closes` says what the grammar wants
there.
-/

namespace SpanScore.Json

open Grammar

namespace Scan

/-! ## One step of a scan -/

/-- The rest of a scan, from behind a value within open brackets on. -/
def proceed (brackets : List Bracket) (text : List Char) : Except Fault (List Char) :=
  match resume brackets text with
  | .error fault => .error fault
  | .ok (.finished rest) => .ok rest
  | .ok (.next stack rest) => skip stack rest

theorem skip_of_whole {text after : List Char} (brackets : List Bracket)
    (h : head text = .ok (.whole after)) : skip brackets text = proceed brackets after := by
  rw [skip, proceed]
  split <;> simp_all
  split <;> simp_all

theorem skip_of_opened {text inner : List Char} {bracket : Bracket} (brackets : List Bracket)
    (h : head text = .ok (.opened bracket inner)) :
    skip brackets text = skip (bracket :: brackets) inner := by
  rw [skip]
  split <;> simp_all

theorem skip_of_error {text : List Char} {fault : Fault} (brackets : List Bracket)
    (h : head text = .error fault) : skip brackets text = .error fault := by
  rw [skip]
  split <;> simp_all

/-- A scan depends on its text only through the head of the text. -/
theorem skip_congr {left right : List Char} (brackets : List Bracket) (h : head left = head right) :
    skip brackets left = skip brackets right := by
  cases found : head right with
  | error fault => rw [skip_of_error brackets found, skip_of_error brackets (h.trans found)]
  | ok found' =>
    cases found' with
    | whole after => rw [skip_of_whole brackets found, skip_of_whole brackets (h.trans found)]
    | opened bracket inner =>
      rw [skip_of_opened brackets found, skip_of_opened brackets (h.trans found)]

@[simp] theorem skip_skipSpace (brackets : List Bracket) (text : List Char) :
    skip brackets (skipSpace text) = skip brackets text := by
  apply skip_congr
  rw [head, skipSpace_skipSpace, ← head]

@[simp] theorem skip_gap_append (brackets : List Bracket) (gap : Gap) (text : List Char) :
    skip brackets (gap.text ++ text) = skip brackets text := by
  rw [← skip_skipSpace, skipSpace_gap_append, skip_skipSpace]

theorem proceed_nil (text : List Char) : proceed [] text = .ok text := rfl

theorem proceed_square_comma (outer : List Bracket) (gap : Gap) (rest : List Char) :
    proceed (.square :: outer) (gap.text ++ ',' :: rest) = skip (.square :: outer) rest := by
  rw [proceed, resume, skipSpace_gap_append, skipSpace_cons rfl]
  rfl

theorem proceed_square_close (outer : List Bracket) (gap : Gap) (rest : List Char) :
    proceed (.square :: outer) (gap.text ++ ']' :: rest) = proceed outer rest := by
  rw [proceed, resume, skipSpace_gap_append, skipSpace_cons rfl]
  rfl

theorem proceed_curly_comma (outer : List Bracket) (gap : Gap) (rest : List Char) :
    proceed (.curly :: outer) (gap.text ++ ',' :: rest) =
      (skipKey rest).bind (skip (.curly :: outer)) := by
  rw [proceed, resume, skipSpace_gap_append, skipSpace_cons rfl]
  cases found : skipKey rest <;> simp only [found] <;> rfl

theorem proceed_curly_close (outer : List Bracket) (gap : Gap) (rest : List Char) :
    proceed (.curly :: outer) (gap.text ++ '\x7d' :: rest) = proceed outer rest := by
  rw [proceed, resume, skipSpace_gap_append, skipSpace_cons rfl]
  rfl

/-! ## What the grammar derives is passed over -/

/-- A key and its colon are passed over. -/
theorem skipKey_text (key : Key) (rest : List Char) : skipKey (key.text ++ rest) = .ok rest := by
  simp only [skipKey, Key.text, List.append_assoc, List.cons_append, skipSpace_gap_append,
    skipSpace_cons (show isSpace '"' = false from rfl), skipString_body]
  simp only [bind, Except.bind, skipSpace_gap_append, List.nil_append,
    skipSpace_cons (show isSpace ':' = false from rfl)]

@[simp] theorem skipKey_skipSpace (text : List Char) : skipKey (skipSpace text) = skipKey text := by
  rw [skipKey, skipSpace_skipSpace, ← skipKey]

theorem isSpace_of_isDigit {digit : Char} (h : digit.isDigit) : isSpace digit = false := by
  simp [isSpace, ne_of_isDigit h (show ' '.isDigit = false from rfl),
    ne_of_isDigit h (show '\n'.isDigit = false from rfl),
    ne_of_isDigit h (show '\t'.isDigit = false from rfl),
    ne_of_isDigit h (show '\r'.isDigit = false from rfl)]

theorem exists_cons_unsigned (number : NumberToken) :
    ∃ digit others, number.unsigned = digit :: others ∧ digit.isDigit := by
  obtain ⟨digit, others, text, isDigit⟩ := exists_cons_digits number.whole
  exact ⟨digit, _, by rw [NumberToken.unsigned, text, List.cons_append], isDigit⟩

/-- A value starts neither with white space nor with a closing bracket. -/
theorem exists_cons_tree (tree : Tree) :
    ∃ char chars, tree.text = char :: chars ∧ isSpace char = false ∧ char ≠ ']' := by
  cases tree with
  | null => exact ⟨_, _, rfl, rfl, by decide⟩
  | bool value => cases value <;> exact ⟨_, _, rfl, rfl, by decide⟩
  | number number =>
    obtain ⟨digit, others, unsigned, isDigit⟩ := exists_cons_unsigned number
    cases negative : number.negative with
    | true => exact ⟨'-', _, by rw [Tree.text, NumberToken.text, negative]; rfl, rfl, by decide⟩
    | false =>
      have text : (Tree.number number).text = digit :: others := by
        rw [Tree.text, NumberToken.text, negative, ← unsigned]
        rfl
      exact ⟨digit, others, text, isSpace_of_isDigit isDigit, ne_of_isDigit isDigit rfl⟩
  | string literal => exact ⟨_, _, rfl, rfl, by decide⟩
  | emptyArray gap => exact ⟨_, _, rfl, rfl, by decide⟩
  | array items => exact ⟨_, _, rfl, rfl, by decide⟩
  | emptyObject gap => exact ⟨_, _, rfl, rfl, by decide⟩
  | object members => exact ⟨_, _, rfl, rfl, by decide⟩

theorem head_square {text rest : List Char} (behind : skipSpace text = '[' :: rest) :
    head text = match skipSpace rest with
      | [] => stop .firstItemExpected 1 []
      | ']' :: after => .ok (.whole after)
      | item => .ok (.opened .square item) := by
  unfold head
  generalize skipSpace text = start at behind ⊢
  subst behind
  rfl

theorem head_curly {text rest : List Char} (behind : skipSpace text = '\x7b' :: rest) :
    head text = match skipSpace rest with
      | '\x7d' :: after => .ok (.whole after)
      | member => Head.opened .curly <$> skipKey member := by
  unfold head
  generalize skipSpace text = start at behind ⊢
  subst behind
  rfl

theorem head_digit {text rest : List Char} {digit : Char}
    (behind : skipSpace text = digit :: rest) (isDigit : digit.isDigit) :
    head text = Head.whole <$> skipNumber (digit :: rest) := by
  rw [head, behind]
  split
  all_goals try
    next heq => exact absurd (List.cons.inj heq).1 (ne_of_isDigit isDigit rfl)
  · next heq => simp at heq
  · next heq =>
    obtain ⟨rfl, rfl⟩ := List.cons.inj heq
    rw [if_pos isDigit]

theorem head_number (number : NumberToken) {rest : List Char} (h : EndsNumber rest) :
    head (number.text ++ rest) = .ok (.whole rest) := by
  have skipped := skipNumber_unsigned number h
  obtain ⟨digit, others, unsigned, isDigit⟩ := exists_cons_unsigned number
  unfold NumberToken.text
  cases number.negative with
  | true =>
    rw [if_pos rfl, head, List.cons_append, skipSpace_cons rfl]
    exact congrArg (Head.whole <$> ·) skipped
  | false =>
    rw [if_neg (by simp)]
    rw [unsigned, List.cons_append] at skipped ⊢
    rw [head_digit (skipSpace_cons (isSpace_of_isDigit isDigit) _) isDigit, skipped]
    rfl

theorem exists_cons_items (items : Items) (rest : List Char) :
    ∃ char chars, skipSpace (items.text ++ rest) = char :: chars ∧ char ≠ ']' := by
  have start (before : Gap) (item : Tree) (tail : List Char) :
      ∃ char chars, skipSpace (before.text ++ (item.text ++ tail)) = char :: chars ∧
        char ≠ ']' := by
    obtain ⟨char, chars, text, notSpace, notClose⟩ := exists_cons_tree item
    exact ⟨char, chars ++ tail, by rw [skipSpace_gap_append, text, List.cons_append,
      skipSpace_cons notSpace], notClose⟩
  cases items with
  | one before item after => simpa [Items.text] using start before item (after.text ++ rest)
  | more before item after more =>
    simpa [Items.text] using start before item (after.text ++ ',' :: (more.text ++ rest))

/-- The bracket of an array with items opens it. -/
theorem head_array (items : Items) (rest : List Char) :
    head ('[' :: (items.text ++ rest)) =
      .ok (.opened .square (skipSpace (items.text ++ rest))) := by
  obtain ⟨char, chars, text, notClose⟩ := exists_cons_items items rest
  rw [head, skipSpace_cons rfl]
  simp only [text]
  split
  · next heq => simp at heq
  · next heq => exact absurd (List.cons.inj heq).1 notClose
  · rfl

/-- The brace of an object with members opens it. -/
theorem head_object {text rest : List Char} (h : skipKey text = .ok rest) :
    head ('\x7b' :: text) = .ok (.opened .curly rest) := by
  simp only [head, skipSpace_cons (show isSpace '\x7b' = false from rfl)]
  split
  · next heq =>
    rw [← skipKey_skipSpace, heq] at h
    simp [skipKey, skipSpace_cons, isSpace, stop] at h
  · rw [skipKey_skipSpace, h]
    rfl

mutual

/-- Behind the text of a value the scan goes on with the brackets around it. -/
theorem skip_text (brackets : List Bracket) {rest : List Char} (h : EndsNumber rest) :
    (tree : Tree) → skip brackets (tree.text ++ rest) = proceed brackets rest
  | .null => skip_of_whole brackets rfl
  | .bool true => skip_of_whole brackets rfl
  | .bool false => skip_of_whole brackets rfl
  | .number number => skip_of_whole brackets (head_number number h)
  | .string literal => by
    apply skip_of_whole
    rw [Tree.text, List.cons_append, head, skipSpace_cons rfl]
    exact congrArg (Head.whole <$> ·) (skipString_body literal rest)
  | .emptyArray gap => by
    apply skip_of_whole
    rw [Tree.text, List.cons_append, head, skipSpace_cons rfl, List.append_assoc]
    simp only [skipSpace_gap_append]
    rfl
  | .array items => by
    have inner := skip_items brackets rest items
    rw [Tree.text, List.cons_append, List.append_assoc, List.singleton_append,
      skip_of_opened brackets (head_array items _), skip_skipSpace, inner]
  | .emptyObject gap => by
    apply skip_of_whole
    rw [Tree.text, List.cons_append, head, skipSpace_cons rfl, List.append_assoc]
    simp only [skipSpace_gap_append]
    rfl
  | .object members => by
    obtain ⟨inner, key, value⟩ := skip_members brackets rest members
    rw [Tree.text, List.cons_append, List.append_assoc, List.singleton_append,
      skip_of_opened brackets (head_object key), value]

/-- Behind the items of an array and its closing bracket the scan goes on outside of it. -/
theorem skip_items (brackets : List Bracket) (rest : List Char) :
    (items : Items) →
      skip (.square :: brackets) (items.text ++ ']' :: rest) = proceed brackets rest
  | .one before item after => by
    have ends : EndsNumber (after.text ++ ']' :: rest) :=
      (endsNumber_cons (by decide)).gap_append after
    rw [Items.text, List.append_assoc, List.append_assoc, skip_gap_append,
      skip_text (.square :: brackets) ends item, proceed_square_close]
  | .more before item after more => by
    have ends : EndsNumber (after.text ++ ',' :: (more.text ++ ']' :: rest)) :=
      (endsNumber_cons (by decide)).gap_append after
    rw [Items.text, List.append_assoc, List.append_assoc, List.append_assoc, List.cons_append,
      skip_gap_append, skip_text (.square :: brackets) ends item, proceed_square_comma,
      skip_items brackets rest more]

/-- Behind the members of an object and its closing brace the scan goes on outside of it. -/
theorem skip_members (brackets : List Bracket) (rest : List Char) :
    (members : Members) →
      ∃ inner, skipKey (members.text ++ '\x7d' :: rest) = .ok inner ∧
        skip (.curly :: brackets) inner = proceed brackets rest
  | .one key before value after => by
    have ends : EndsNumber (after.text ++ '\x7d' :: rest) :=
      (endsNumber_cons (by decide)).gap_append after
    refine ⟨before.text ++ (value.text ++ (after.text ++ '\x7d' :: rest)), ?_, ?_⟩
    · simp only [Members.text, List.append_assoc, skipKey_text]
    · rw [skip_gap_append, skip_text (.curly :: brackets) ends value, proceed_curly_close]
  | .more key before value after more => by
    obtain ⟨inner, next, closed⟩ := skip_members brackets rest more
    have ends : EndsNumber (after.text ++ ',' :: (more.text ++ '\x7d' :: rest)) :=
      (endsNumber_cons (by decide)).gap_append after
    refine ⟨before.text ++ (value.text ++ (after.text ++ ',' :: (more.text ++ '\x7d' :: rest))),
      ?_, ?_⟩
    · simp only [Members.text, List.append_assoc, List.cons_append, skipKey_text]
    · rw [skip_gap_append, skip_text (.curly :: brackets) ends value, proceed_curly_comma, next]
      exact closed

end

/-! ## Whatever is passed over is derived by the grammar -/

theorem eq_append_of_skipWord {word text rest : List Char} (h : skipWord word text = .ok rest) :
    text = word ++ rest := by
  induction word generalizing text with
  | nil => simpa [skipWord] using h
  | cons letter letters ih =>
    cases text with
    | nil => simp [skipWord, stop] at h
    | cons char chars =>
      simp only [skipWord] at h
      split at h
      · next same => rw [ih h, same, List.cons_append]
      · simp [stop] at h

/-- Whatever is passed over as a key is one. -/
theorem exists_key {text rest : List Char} (h : skipKey text = .ok rest) :
    ∃ key : Key, text = key.text ++ rest := by
  obtain ⟨before, text_eq⟩ := exists_gap text
  unfold skipKey at h
  split at h
  · next opened quote =>
    cases string : skipString opened with
    | error fault => simp [string, bind, Except.bind] at h
    | ok behind =>
      simp only [string, bind, Except.bind] at h
      obtain ⟨after, behind_eq⟩ := exists_gap behind
      obtain ⟨literal, opened_eq⟩ := exists_literal string
      split at h
      · next colon =>
        rw [Except.ok.injEq] at h
        refine ⟨⟨before, literal, after⟩, ?_⟩
        rw [text_eq, quote, opened_eq, behind_eq, colon, h]
        simp [Key.text]
      · simp [stop] at h
  · simp [stop] at h

/-- What the grammar wants of a text, given what its head is. -/
def Starts (text : List Char) : Head → Prop
  | .whole after => ∃ (gap : Gap) (tree : Tree), text = gap.text ++ (tree.text ++ after)
  | .opened .square inner =>
    ∃ gap inside : Gap, text = gap.text ++ '[' :: (inside.text ++ inner)
  | .opened .curly inner =>
    ∃ (gap : Gap) (key : Key), text = gap.text ++ '\x7b' :: (key.text ++ inner)

theorem starts_of_map {result : Except Fault (List Char)} {make : List Char → Head} {found : Head}
    {text : List Char} (h : make <$> result = .ok found)
    (starts : ∀ rest, result = .ok rest → Starts text (make rest)) : Starts text found := by
  cases result with
  | error fault => simp [Functor.map, Except.map] at h
  | ok rest =>
    simp only [Functor.map, Except.map, Except.ok.injEq] at h
    exact h ▸ starts rest rfl

/-- The head of a text is one that the grammar knows. -/
theorem starts_of_head {text : List Char} {found : Head} (h : head text = .ok found) :
    Starts text found := by
  obtain ⟨gap, text_eq⟩ := exists_gap text
  unfold head at h
  split at h
  · simp [stop] at h
  · next rest heq =>
    refine starts_of_map h fun after word ↦ ⟨gap, .null, ?_⟩
    rw [text_eq, heq, eq_append_of_skipWord word]
    rfl
  · next rest heq =>
    refine starts_of_map h fun after word ↦ ⟨gap, .bool true, ?_⟩
    rw [text_eq, heq, eq_append_of_skipWord word]
    rfl
  · next rest heq =>
    refine starts_of_map h fun after word ↦ ⟨gap, .bool false, ?_⟩
    rw [text_eq, heq, eq_append_of_skipWord word]
    rfl
  · next rest heq =>
    refine starts_of_map h fun after string ↦ ?_
    obtain ⟨literal, rest_eq⟩ := exists_literal string
    exact ⟨gap, .string literal, by rw [text_eq, heq, rest_eq]; rfl⟩
  · next rest heq =>
    refine starts_of_map h fun after skipped ↦ ?_
    obtain ⟨number, negative, rest_eq⟩ := exists_number true skipped
    refine ⟨gap, .number number, ?_⟩
    rw [text_eq, heq, rest_eq, Tree.text, NumberToken.text, negative]
    rfl
  · next rest heq =>
    obtain ⟨inside, rest_eq⟩ := exists_gap rest
    split at h
    · simp [stop] at h
    · next after close =>
      rw [Except.ok.injEq] at h
      subst h
      refine ⟨gap, .emptyArray inside, ?_⟩
      rw [text_eq, heq, rest_eq, close]
      simp [Tree.text]
    · rw [Except.ok.injEq] at h
      subst h
      exact ⟨gap, inside, by rw [text_eq, heq, ← rest_eq]⟩
  · next rest heq =>
    obtain ⟨inside, rest_eq⟩ := exists_gap rest
    split at h
    · next after close =>
      rw [Except.ok.injEq] at h
      subst h
      refine ⟨gap, .emptyObject inside, ?_⟩
      rw [text_eq, heq, rest_eq, close]
      simp [Tree.text]
    · rw [skipKey_skipSpace] at h
      refine starts_of_map h fun after skipped ↦ ?_
      obtain ⟨key, rest_eq⟩ := exists_key skipped
      exact ⟨gap, key, by rw [text_eq, heq, rest_eq]⟩
  · next char rest _ _ _ _ _ _ _ heq =>
    split at h
    · refine starts_of_map h fun after skipped ↦ ?_
      obtain ⟨number, negative, rest_eq⟩ := exists_number false skipped
      refine ⟨gap, .number number, ?_⟩
      rw [text_eq, heq, rest_eq, Tree.text, NumberToken.text, negative]
      rfl
    · simp [stop] at h

/-- What the grammar wants behind a value within open brackets, so that `rest` is left behind the
last of them. -/
def Closes : List Bracket → List Char → List Char → Prop
  | [], text, rest => text = rest
  | .square :: outer, text, rest =>
    ∃ (after : Gap) (tail : List Char), Closes outer tail rest ∧
      (text = after.text ++ ']' :: tail ∨
        ∃ more : Items, text = after.text ++ ',' :: (more.text ++ ']' :: tail))
  | .curly :: outer, text, rest =>
    ∃ (after : Gap) (tail : List Char), Closes outer tail rest ∧
      (text = after.text ++ '\x7d' :: tail ∨
        ∃ more : Members, text = after.text ++ ',' :: (more.text ++ '\x7d' :: tail))

theorem closes_of_finished {brackets : List Bracket} {text rest : List Char}
    (h : resume brackets text = .ok (.finished rest)) : Closes brackets text rest := by
  fun_induction resume brackets text with
  | case1 text =>
    rw [Except.ok.injEq, Step.finished.injEq] at h
    exact h
  | case2 => simp at h
  | case3 outer text after close ih =>
    obtain ⟨gap, text_eq⟩ := exists_gap text
    exact ⟨gap, after, ih h, .inl (by rw [text_eq, close])⟩
  | case4 => simp [stop] at h
  | case5 outer text after =>
    cases key : skipKey after <;> simp [key, Functor.map, Except.map] at h
  | case6 outer text after close ih =>
    obtain ⟨gap, text_eq⟩ := exists_gap text
    exact ⟨gap, after, ih h, .inl (by rw [text_eq, close])⟩
  | case7 => simp [stop] at h

/-- Where another value follows, it is the next item or member of the innermost bracket. -/
theorem closes_of_next {brackets stack : List Bracket} {text inner tail rest : List Char}
    {before : Gap} {tree : Tree} (h : resume brackets text = .ok (.next stack inner))
    (inner_eq : inner = before.text ++ (tree.text ++ tail)) (closes : Closes stack tail rest) :
    Closes brackets text rest := by
  fun_induction resume brackets text with
  | case1 => simp at h
  | case2 outer text after comma =>
    rw [Except.ok.injEq, Step.next.injEq] at h
    obtain ⟨rfl, rfl⟩ := h
    obtain ⟨gap, text_eq⟩ := exists_gap text
    obtain ⟨behind, tail', outside, closed | ⟨more, continued⟩⟩ := closes
    · refine ⟨gap, tail', outside, .inr ⟨.one before tree behind, ?_⟩⟩
      rw [text_eq, comma, inner_eq, closed]
      simp [Items.text]
    · refine ⟨gap, tail', outside, .inr ⟨.more before tree behind more, ?_⟩⟩
      rw [text_eq, comma, inner_eq, continued]
      simp [Items.text]
  | case3 outer text after close ih =>
    obtain ⟨gap, text_eq⟩ := exists_gap text
    exact ⟨gap, after, ih h, .inl (by rw [text_eq, close])⟩
  | case4 => simp [stop] at h
  | case5 outer text after comma =>
    obtain ⟨gap, text_eq⟩ := exists_gap text
    cases skipped : skipKey after with
    | error fault => simp [skipped, Functor.map, Except.map] at h
    | ok value =>
      simp only [skipped, Functor.map, Except.map, Except.ok.injEq, Step.next.injEq] at h
      obtain ⟨rfl, rfl⟩ := h
      obtain ⟨key, after_eq⟩ := exists_key skipped
      obtain ⟨behind, tail', outside, closed | ⟨more, continued⟩⟩ := closes
      · refine ⟨gap, tail', outside, .inr ⟨.one key before tree behind, ?_⟩⟩
        rw [text_eq, comma, after_eq, inner_eq, closed]
        simp [Members.text]
      · refine ⟨gap, tail', outside, .inr ⟨.more key before tree behind more, ?_⟩⟩
        rw [text_eq, comma, after_eq, inner_eq, continued]
        simp [Members.text]
  | case6 outer text after close ih =>
    obtain ⟨gap, text_eq⟩ := exists_gap text
    exact ⟨gap, after, ih h, .inl (by rw [text_eq, close])⟩
  | case7 => simp [stop] at h

/-- Whatever is passed over is a value and what closes the brackets around it. -/
theorem exists_tree {brackets : List Bracket} {text rest : List Char}
    (h : skip brackets text = .ok rest) :
    ∃ (gap : Gap) (tree : Tree) (tail : List Char),
      text = gap.text ++ (tree.text ++ tail) ∧ Closes brackets tail rest := by
  fun_induction skip brackets text with
  | case1 => simp at h
  | case2 brackets text bracket inner opened ih =>
    obtain ⟨before, tree, tail, inner_eq, closes⟩ := ih h
    cases bracket with
    | square =>
      obtain ⟨gap, inside, text_eq⟩ := starts_of_head opened
      obtain ⟨behind, tail', outside, closed | ⟨more, continued⟩⟩ := closes
      · refine ⟨gap, .array (.one (inside.append before) tree behind), tail', ?_, outside⟩
        rw [text_eq, inner_eq, closed]
        simp [Tree.text, Items.text]
      · refine ⟨gap, .array (.more (inside.append before) tree behind more), tail', ?_, outside⟩
        rw [text_eq, inner_eq, continued]
        simp [Tree.text, Items.text]
    | curly =>
      obtain ⟨gap, key, text_eq⟩ := starts_of_head opened
      obtain ⟨behind, tail', outside, closed | ⟨more, continued⟩⟩ := closes
      · refine ⟨gap, .object (.one key before tree behind), tail', ?_, outside⟩
        rw [text_eq, inner_eq, closed]
        simp [Tree.text, Members.text]
      · refine ⟨gap, .object (.more key before tree behind more), tail', ?_, outside⟩
        rw [text_eq, inner_eq, continued]
        simp [Tree.text, Members.text]
  | case3 => simp at h
  | case4 brackets text after whole rest' finished =>
    rw [Except.ok.injEq] at h
    obtain ⟨gap, tree, text_eq⟩ := starts_of_head whole
    exact ⟨gap, tree, after, text_eq, h ▸ closes_of_finished finished⟩
  | case5 brackets text after whole stack inner another ih =>
    obtain ⟨before, next, tail, inner_eq, closes⟩ := ih h
    obtain ⟨gap, tree, text_eq⟩ := starts_of_head whole
    exact ⟨gap, tree, after, text_eq, closes_of_next another inner_eq closes⟩

/-! ## Whole values -/

theorem skipSpace_tree_append (tree : Tree) (rest : List Char) :
    skipSpace (tree.text ++ rest) = tree.text ++ rest := by
  obtain ⟨char, chars, text, notSpace, -⟩ := exists_cons_tree tree
  rw [text, List.cons_append, skipSpace_cons notSpace]

/-- Outside of all brackets a scan passes over one value. -/
theorem skip_nil_text (tree : Tree) {rest : List Char} (h : EndsNumber rest) :
    skip [] (tree.text ++ rest) = .ok rest := by
  rw [skip_text [] h, proceed_nil]

/-- Outside of all brackets a scan passes over one value and nothing else. -/
theorem exists_tree_of_skip_nil {text rest : List Char}
    (h : skip [] (skipSpace text) = .ok rest) :
    ∃ (gap : Gap) (tree : Tree),
      text = gap.text ++ (tree.text ++ rest) ∧ skipSpace text = tree.text ++ rest := by
  rw [skip_skipSpace] at h
  obtain ⟨gap, tree, tail, text_eq, rfl⟩ := exists_tree h
  exact ⟨gap, tree, text_eq, by rw [text_eq, skipSpace_gap_append, skipSpace_tree_append]⟩

theorem take_length_sub_length (left right : List Char) :
    (left ++ right).take ((left ++ right).length - right.length) = left := by
  rw [List.length_append, Nat.add_sub_cancel, List.take_left]

/-- A value is returned as the text that it is, without the white space before it. -/
theorem value_text (gap : Gap) (tree : Tree) {rest : List Char} (h : EndsNumber rest) :
    value (gap.text ++ (tree.text ++ rest)) = .ok (tree.text, rest) := by
  simp only [value, skipSpace_gap_append, skipSpace_tree_append, skip_nil_text tree h, bind,
    Except.bind, take_length_sub_length]
  rfl

theorem exists_tree_of_value {text found rest : List Char} (h : value text = .ok (found, rest)) :
    ∃ (gap : Gap) (tree : Tree), text = gap.text ++ (tree.text ++ rest) ∧ found = tree.text := by
  simp only [value, bind, Except.bind] at h
  split at h
  · simp at h
  · next skipped =>
    simp only [pure, Except.pure, Except.ok.injEq, Prod.mk.injEq] at h
    obtain ⟨rfl, rfl⟩ := h
    obtain ⟨gap, tree, text_eq, start_eq⟩ := exists_tree_of_skip_nil skipped
    exact ⟨gap, tree, text_eq, by rw [start_eq, take_length_sub_length]⟩

end Scan

end SpanScore.Json
