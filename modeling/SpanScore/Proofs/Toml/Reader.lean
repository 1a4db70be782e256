import Mathlib.Data.List.TakeWhile
import SpanScore.Toml.Cursor

/-!
# What readers look at

A reader takes a part of the text and looks at a little of what follows it.  The readers for white
space, comments, keys and plain values never look behind a quote that they do not take, so each of
them takes the same from every text that goes on alike up to its first quote.
-/

namespace SpanScore.Toml

@[simp] theorem byteLength_nil : byteLength [] = 0 := rfl

theorem byteLength_cons (char : Char) (chars : List Char) :
    byteLength (char :: chars) = char.utf8Size + byteLength chars := rfl

theorem byteLength_append (chars chars' : List Char) :
    byteLength (chars ++ chars') = byteLength chars + byteLength chars' := by
  induction chars with
  | nil => exact (Nat.zero_add _).symm
  | cons char chars ih => rw [List.cons_append, byteLength_cons, byteLength_cons, ih, Nat.add_assoc]

theorem byteLength_pos {chars : List Char} (filled : chars ≠ []) : 0 < byteLength chars := by
  cases chars with
  | nil => exact absurd rfl filled
  | cons char chars => exact Nat.add_pos_left char.utf8Size_pos _

/-! ## Texts that are alike up to a quote -/

def IsQuote (char : Char) : Prop :=
  char = '"' ∨ char = '\''

instance : DecidablePred IsQuote := fun _ ↦ inferInstanceAs (Decidable (_ ∨ _))

/-- Whether two texts are the same, or have the same characters up to a quote in both of them. -/
def AlikeToQuote (text text' : List Char) : Prop :=
  text = text' ∨ ∃ same quote more more', IsQuote quote ∧
    text = same ++ quote :: more ∧ text' = same ++ quote :: more'

namespace AlikeToQuote

variable {text text' : List Char}

theorem refl (text : List Char) : AlikeToQuote text text := .inl rfl

theorem append (alike : AlikeToQuote text text') (taken : List Char) :
    AlikeToQuote (taken ++ text) (taken ++ text') := by
  obtain rfl | ⟨same, quote, more, more', isQuote, rfl, rfl⟩ := alike
  · exact .inl rfl
  · exact .inr ⟨taken ++ same, quote, more, more', isQuote, by simp, by simp⟩

theorem head?_eq (alike : AlikeToQuote text text') : text.head? = text'.head? := by
  obtain rfl | ⟨same, quote, more, more', -, rfl, rfl⟩ := alike
  · rfl
  · cases same <;> rfl

/-- What has no quotes stands in front of both texts or of none. -/
theorem isPrefixOf_eq (alike : AlikeToQuote text text') {front : List Char}
    (plain : ∀ char ∈ front, ¬IsQuote char) :
    front.isPrefixOf text = front.isPrefixOf text' := by
  induction front generalizing text text' with
  | nil => rw [List.isPrefixOf_nil_left, List.isPrefixOf_nil_left]
  | cons char front ih =>
    obtain ⟨other, plain⟩ := List.forall_mem_cons.1 plain
    obtain rfl | ⟨same, quote, more, more', isQuote, rfl, rfl⟩ := alike
    · rfl
    · cases same with
      | nil =>
        have differs : (char == quote) = false :=
          beq_eq_false_iff_ne.2 fun eq ↦ other (eq ▸ isQuote)
        simp [List.isPrefixOf, differs]
      | cons first same =>
        rw [List.cons_append, List.cons_append, List.isPrefixOf_cons_cons,
          List.isPrefixOf_cons_cons, ih (.inr ⟨same, quote, more, more', isQuote, rfl, rfl⟩) plain]

end AlikeToQuote

namespace Reader

variable {α β : Type}

/-! ## Steps of readers -/

theorem bind_eq_some_iff {read : Reader α} {next : α → Reader β} {cursor after : Cursor}
    {value : β} :
    (read >>= next) cursor = some (value, after) ↔
      ∃ first middle, read cursor = some (first, middle) ∧
        next first middle = some (value, after) := by
  change (read cursor >>= fun taken ↦ next taken.1 taken.2) = _ ↔ _
  rw [Option.bind_eq_bind, Option.bind_eq_some_iff]
  exact Prod.exists

theorem pure_eq_some_iff {cursor after : Cursor} {value value' : α} :
    (pure value : Reader α) cursor = some (value', after) ↔ value = value' ∧ cursor = after := by
  change some (value, cursor) = some (value', after) ↔ _
  rw [Option.some_inj, Prod.mk.injEq]

theorem located_eq_some_iff {read : Reader α} {cursor after : Cursor} {found : Located α} :
    located read cursor = some (found, after) ↔
      read cursor = some (found.value, after) ∧ found.region = ⟨cursor.offset, after.offset⟩ := by
  obtain ⟨region, value⟩ := found
  rw [located]
  cases read cursor with
  | none => simp
  | some taken => grind

/-! ## Readers that follow one another -/

/-- Whether a cursor stands behind another one, with some characters between them. -/
structure Passes (cursor after : Cursor) (taken : List Char) : Prop where
  rest_eq : cursor.rest = taken ++ after.rest
  offset_eq : after.offset = cursor.offset + byteLength taken

theorem Passes.refl (cursor : Cursor) : Passes cursor cursor [] := ⟨rfl, rfl⟩

theorem Passes.trans {cursor middle after : Cursor} {taken taken' : List Char}
    (first : Passes cursor middle taken) (second : Passes middle after taken') :
    Passes cursor after (taken ++ taken') := by
  constructor
  · rw [first.rest_eq, second.rest_eq, List.append_assoc]
  · rw [second.offset_eq, first.offset_eq, byteLength_append, Nat.add_assoc]

theorem Passes.unique {cursor after : Cursor} {taken taken' : List Char}
    (first : Passes cursor after taken) (second : Passes cursor after taken') : taken = taken' :=
  List.append_cancel_right (first.rest_eq.symm.trans second.rest_eq)

/-- Whether a reader takes what another one takes from a text that is alike behind that up to a
quote, with a value that is the same in some sense. -/
def Follows (read read' : Reader α) (same : α → α → Prop) : Prop :=
  ∀ ⦃cursor : Cursor⦄ ⦃value : α⦄ ⦃after : Cursor⦄, read cursor = some (value, after) →
    ∃ taken, Passes cursor after taken ∧
      ∀ rest offset, AlikeToQuote after.rest rest →
        ∃ value', read' ⟨taken ++ rest, offset⟩ =
          some (value', ⟨rest, offset + byteLength taken⟩) ∧ same value value'

section Follows

variable {read read' : Reader α} {same : α → α → Prop}

theorem follows_pure {value value' : α} (h : same value value') :
    Follows (pure value) (pure value') same := by
  intro cursor found after ran
  obtain ⟨rfl, rfl⟩ := pure_eq_some_iff.1 ran
  exact ⟨[], .refl cursor, fun rest offset _ ↦ ⟨value', rfl, h⟩⟩

theorem follows_fail (read' : Reader α) : Follows fail read' same :=
  fun _ _ _ ran ↦ nomatch ran

theorem Follows.bind {next next' : α → Reader β} {same' : β → β → Prop}
    (first : Follows read read' same)
    (second : ∀ value value', same value value' → Follows (next value) (next' value') same') :
    Follows (read >>= next) (read' >>= next') same' := by
  intro cursor value after ran
  obtain ⟨x, middle, firstRan, secondRan⟩ := bind_eq_some_iff.1 ran
  obtain ⟨taken, passes, firstAgain⟩ := first firstRan
  obtain ⟨x₀, -, isSame₀⟩ := firstAgain middle.rest 0 (.refl _)
  obtain ⟨taken', passes', -⟩ := second x x₀ isSame₀ secondRan
  refine ⟨taken ++ taken', passes.trans passes', fun rest offset alike ↦ ?_⟩
  obtain ⟨x', firstRan', isSame⟩ := firstAgain (taken' ++ rest) offset
    (passes'.rest_eq ▸ alike.append taken')
  obtain ⟨taken'', passes'', secondAgain⟩ := second x x' isSame secondRan
  obtain rfl := passes'.unique passes''
  obtain ⟨value', secondRan', isSame'⟩ :=
    secondAgain rest (offset + byteLength taken) alike
  refine ⟨value', ?_, isSame'⟩
  rw [List.append_assoc, byteLength_append, ← Nat.add_assoc]
  exact bind_eq_some_iff.2 ⟨x', _, firstRan', secondRan'⟩

/-- Readers that do the same behind a value that is the same. -/
theorem Follows.bind_eq {next : α → Reader β} {same' : β → β → Prop}
    (first : Follows read read' Eq) {next' : α → Reader β}
    (second : ∀ value, Follows (next value) (next' value) same') :
    Follows (read >>= next) (read' >>= next') same' :=
  first.bind fun value _ eq ↦ eq ▸ second value

theorem discard_eq (read : Reader α) : discard read = read >>= fun _ ↦ pure () := rfl

theorem Follows.discard (follows : Follows read read' same) :
    Follows (discard read) (discard read') Eq := by
  rw [discard_eq, discard_eq]
  exact follows.bind fun _ _ _ ↦ follows_pure rfl

theorem Follows.ite {condition : Prop} [Decidable condition] {other other' : Reader α}
    (yes : Follows read read' same) (no : Follows other other' same) :
    Follows (if condition then read else other) (if condition then read' else other') same := by
  split
  · exact yes
  · exact no

theorem Follows.located (follows : Follows read read' same) :
    Follows (located read) (located read')
      fun found found' ↦ same found.value found'.value := by
  intro cursor found after ran
  obtain ⟨ran, -⟩ := located_eq_some_iff.1 ran
  obtain ⟨taken, passes, again⟩ := follows ran
  refine ⟨taken, passes, fun rest offset alike ↦ ?_⟩
  obtain ⟨value', ran', isSame⟩ := again rest offset alike
  exact ⟨⟨⟨_, _⟩, value'⟩, located_eq_some_iff.2 ⟨ran', rfl⟩, isSame⟩

end Follows

/-! ## Small readers -/

theorem follows_next : Follows next next Eq := by
  intro cursor char after ran
  obtain ⟨rest, offset⟩ := cursor
  cases rest with
  | nil => cases ran
  | cons first rest =>
    cases ran
    exact ⟨[char], ⟨rfl, rfl⟩, fun rest offset _ ↦ ⟨char, rfl, rfl⟩⟩

theorem follows_peek : Follows peek peek Eq := by
  intro cursor found after ran
  cases ran
  exact ⟨[], .refl cursor, fun rest offset alike ↦ ⟨_, rfl, alike.head?_eq⟩⟩

theorem follows_exactly (char : Char) : Follows (exactly char) (exactly char) Eq :=
  follows_next.bind_eq fun _ ↦ .ite (follows_fail _) (follows_pure rfl)

theorem head?_dropWhile {kind : Char → Bool} {text : List Char} {char : Char}
    (h : (text.dropWhile kind).head? = some char) : kind char = false := by
  have stops := List.head?_dropWhile_not kind text
  rw [h] at stops
  simpa using stops

/-- What is taken is all of some kind, and what follows is not. -/
theorem takeWhile_sound {kind : Char → Bool} {cursor after : Cursor} {taken : List Char}
    (ran : takeWhile kind cursor = some (taken, after)) :
    Passes cursor after taken ∧ (∀ char ∈ taken, kind char = true) ∧
      ∀ char, after.rest.head? = some char → kind char = false := by
  cases ran
  exact ⟨⟨List.takeWhile_append_dropWhile.symm, rfl⟩, fun _ mem ↦ List.mem_takeWhile_imp mem,
    fun _ head ↦ head?_dropWhile head⟩

theorem takeWhile_append {kind : Char → Bool} {taken rest : List Char}
    (inside : ∀ char ∈ taken, kind char = true)
    (stops : ∀ char, rest.head? = some char → kind char = false) (offset : Nat) :
    takeWhile kind ⟨taken ++ rest, offset⟩ =
      some (taken, ⟨rest, offset + byteLength taken⟩) := by
  have taken_eq : (taken ++ rest).takeWhile kind = taken ∧
      (taken ++ rest).dropWhile kind = rest := by
    rw [List.takeWhile_append_of_pos inside, List.dropWhile_append_of_pos inside]
    cases rest with
    | nil => simp
    | cons char rest => simp [stops char rfl]
  rw [takeWhile, taken_eq.1, taken_eq.2]
  rfl

theorem follows_takeWhile (kind : Char → Bool) :
    Follows (takeWhile kind) (takeWhile kind) Eq := by
  intro cursor taken after ran
  obtain ⟨passes, inside, stops⟩ := takeWhile_sound ran
  exact ⟨taken, passes, fun rest offset alike ↦ ⟨taken, takeWhile_append inside
    (fun char head ↦ stops char (alike.head?_eq.trans head)) offset, rfl⟩⟩

theorem takeIf_eq (text : List Char) (cursor : Cursor) :
    takeIf text cursor =
      if text.isPrefixOf cursor.rest then
        some (true, cursor.past text (cursor.rest.drop text.length))
      else some (false, cursor) := rfl

theorem takeIf_append (text rest : List Char) (offset : Nat) :
    takeIf text ⟨text ++ rest, offset⟩ = some (true, ⟨rest, offset + byteLength text⟩) := by
  rw [takeIf_eq, if_pos (List.isPrefixOf_iff_prefix.2 (List.prefix_append text rest)),
    Cursor.past, List.drop_left]

theorem takeIf_other {text : List Char} {cursor : Cursor}
    (other : ¬text <+: cursor.rest) : takeIf text cursor = some (false, cursor) := by
  rw [takeIf_eq, if_neg (mt List.isPrefixOf_iff_prefix.1 other)]

/-- A given text either stands next and is taken, or nothing is. -/
theorem takeIf_cases {text : List Char} {cursor after : Cursor} {found : Bool}
    (ran : takeIf text cursor = some (found, after)) :
    found = true ∧ Passes cursor after text ∨
      found = false ∧ cursor = after ∧ ¬text <+: cursor.rest := by
  rw [takeIf_eq] at ran
  split at ran
  · next stands =>
    cases ran
    obtain ⟨rest, rest_eq⟩ := List.isPrefixOf_iff_prefix.1 stands
    refine .inl ⟨rfl, ?_, rfl⟩
    rw [Cursor.past, ← rest_eq, List.drop_left]
  · next other =>
    cases ran
    exact .inr ⟨rfl, rfl, mt List.isPrefixOf_iff_prefix.2 other⟩

theorem follows_takeIf {text : List Char} (plain : ∀ char ∈ text, ¬IsQuote char) :
    Follows (takeIf text) (takeIf text) Eq := by
  intro cursor found after ran
  obtain ⟨rfl, passes⟩ | ⟨rfl, rfl, other⟩ := takeIf_cases ran
  · exact ⟨text, passes, fun rest offset _ ↦ ⟨true, takeIf_append text rest offset, rfl⟩⟩
  · refine ⟨[], .refl cursor, fun rest offset alike ↦ ⟨false, ?_, rfl⟩⟩
    apply takeIf_other
    rwa [← List.isPrefixOf_iff_prefix, List.nil_append, ← alike.isPrefixOf_eq plain,
      List.isPrefixOf_iff_prefix]

/-! ## White space, comments and line ends -/

theorem follows_blanks : Follows blanks blanks Eq :=
  (follows_takeWhile isBlank).discard

theorem follows_takeNewline : Follows takeNewline takeNewline Eq :=
  (follows_takeIf (by simp [IsQuote])).bind_eq fun _ ↦
    .ite (follows_pure rfl) (follows_takeIf (by simp [IsQuote]))

theorem follows_blanksAndComment : Follows blanksAndComment blanksAndComment Eq :=
  follows_blanks.bind_eq fun _ ↦ (follows_takeIf (by simp [IsQuote])).bind_eq fun _ ↦
    .ite (follows_takeWhile isPlain).discard (follows_pure rfl)

theorem follows_lineEnd : Follows lineEnd lineEnd Eq :=
  follows_blanksAndComment.bind_eq fun _ ↦ follows_takeNewline.bind_eq fun _ ↦
    .ite (follows_peek.bind_eq fun _ ↦ .ite (follows_fail _) (follows_pure rfl)) (follows_pure rfl)

theorem follows_linesWith (fuel : Nat) : Follows (linesWith fuel) (linesWith fuel) Eq := by
  induction fuel with
  | zero => exact follows_blanksAndComment
  | succ fuel ih =>
    exact follows_blanksAndComment.bind_eq fun _ ↦ follows_takeNewline.bind_eq fun _ ↦
      .ite ih (follows_pure rfl)

/-- A line end either stands next and is taken, or nothing is. -/
theorem takeNewline_cases {cursor after : Cursor} {found : Bool}
    (ran : takeNewline cursor = some (found, after)) :
    found = true ∧ (Passes cursor after ['\n'] ∨ Passes cursor after ['\r', '\n']) ∨
      found = false ∧ cursor = after ∧ ¬['\n'] <+: cursor.rest ∧ ¬['\r', '\n'] <+: cursor.rest := by
  obtain ⟨first, middle, firstRan, ran⟩ := bind_eq_some_iff.1 ran
  obtain ⟨rfl, passes⟩ | ⟨rfl, rfl, other⟩ := takeIf_cases firstRan
  · obtain ⟨rfl, rfl⟩ := pure_eq_some_iff.1 ran
    exact .inl ⟨rfl, .inl passes⟩
  · obtain ⟨rfl, passes⟩ | ⟨rfl, rfl, other'⟩ := takeIf_cases ran
    · exact .inl ⟨rfl, .inr passes⟩
    · exact .inr ⟨rfl, rfl, other, other'⟩

theorem Passes.length_eq {cursor after : Cursor} {taken : List Char}
    (passes : Passes cursor after taken) :
    cursor.rest.length = taken.length + after.rest.length := by
  rw [passes.rest_eq, List.length_append]

theorem length_lt_of_takeNewline {cursor after : Cursor}
    (ran : takeNewline cursor = some (true, after)) : after.rest.length < cursor.rest.length := by
  obtain ⟨-, passes | passes⟩ | ⟨found, -⟩ := takeNewline_cases ran
  · simp [passes.length_eq]
  · simp [passes.length_eq]
  · cases found

/-- What one reader takes goes on with the same results. -/
theorem bind_congr_of_run {read : Reader α} {next next' : α → Reader β} {cursor : Cursor}
    (h : ∀ value after, read cursor = some (value, after) → next value after = next' value after) :
    (read >>= next) cursor = (read >>= next') cursor := by
  change (read cursor).bind _ = (read cursor).bind _
  exact Option.bind_congr fun taken ran ↦ h taken.1 taken.2 ran

/-- Once fuel lasts, more of it changes nothing. -/
theorem eq_of_step (result : Nat → α) {enough : Nat}
    (step : ∀ fuel, enough ≤ fuel → result (fuel + 1) = result fuel) {fuel fuel' : Nat}
    (h : enough ≤ fuel) (h' : enough ≤ fuel') : result fuel = result fuel' := by
  have toEnough (fuel : Nat) (h : enough ≤ fuel) : result fuel = result enough :=
    Nat.le_induction rfl (fun fuel h ih ↦ (step fuel h).trans ih) fuel h
  rw [toEnough fuel h, toEnough fuel' h']

theorem linesWith_succ (fuel : Nat) (cursor : Cursor) (h : cursor.rest.length ≤ fuel) :
    linesWith (fuel + 1) cursor = linesWith fuel cursor := by
  induction fuel generalizing cursor with
  | zero =>
    obtain ⟨rest, offset⟩ := cursor
    obtain rfl := List.eq_nil_of_length_eq_zero (Nat.le_zero.1 h)
    rfl
  | succ fuel ih =>
    refine bind_congr_of_run fun _ middle ran ↦ bind_congr_of_run fun newline after ran' ↦ ?_
    cases newline with
    | false => rfl
    | true =>
      obtain ⟨taken, passes, -⟩ := follows_blanksAndComment ran
      have shorter := length_lt_of_takeNewline ran'
      have length := passes.length_eq
      exact ih after (by omega)

theorem lines_eq {cursor : Cursor} {fuel : Nat} (h : cursor.rest.length ≤ fuel) :
    lines cursor = linesWith fuel cursor :=
  eq_of_step (linesWith · cursor) (fun fuel h ↦ linesWith_succ fuel cursor h) le_rfl h

/-- A reader whose fuel lasts for what has not been read follows itself if it does with each fuel
that is the same for both texts. -/
theorem Follows.of_fuel {read : Reader α} {result : Nat → Reader α} {same : α → α → Prop}
    (enough : ∀ cursor fuel, cursor.rest.length < fuel → read cursor = result fuel cursor)
    (follows : ∀ fuel, Follows (result fuel) (result fuel) same) : Follows read read same := by
  intro cursor value after ran
  have ran' := (enough cursor _ (Nat.lt_succ_self _)).symm.trans ran
  obtain ⟨taken, passes, -⟩ := follows _ ran'
  refine ⟨taken, passes, fun rest offset alike ↦ ?_⟩
  let fuel := max cursor.rest.length (taken ++ rest).length + 1
  rw [enough cursor fuel (Nat.lt_succ_of_le (le_max_left ..))] at ran
  obtain ⟨taken', passes', again⟩ := follows fuel ran
  obtain rfl := passes.unique passes'
  rw [enough _ fuel (Nat.lt_succ_of_le (le_max_right ..))]
  exact again rest offset alike

theorem follows_lines : Follows lines lines Eq :=
  .of_fuel (fun _ _ h ↦ lines_eq (Nat.le_of_lt h)) follows_linesWith

/-- There is nothing to take in front of a quote. -/
theorem lines_of_isQuote {quote : Char} (isQuote : IsQuote quote) (rest : List Char)
    (offset : Nat) : lines ⟨quote :: rest, offset⟩ = some ((), ⟨quote :: rest, offset⟩) := by
  obtain rfl | rfl := isQuote <;> rfl

end Reader

end SpanScore.Toml
