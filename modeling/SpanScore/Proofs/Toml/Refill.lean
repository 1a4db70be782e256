import SpanScore.Proofs.Toml.Trees

/-!
# Texts with other strings in them

What a reader takes is made of string values and of text between them.  Main statement: a document
in which each string value gives way to another one with the same quotes is a document again, which
is the same but for the strings.
-/

namespace SpanScore.Toml

/-! ## Text between strings -/

/-- A part of a document: a string value, or some text. -/
inductive Segment where
  | plain (chars : List Char)
  | string (token : StringToken)

def Segment.text : Segment → List Char
  | .plain chars => chars
  | .string token => token.text

/-- The text of some parts. -/
def textOf (segments : List Segment) : List Char :=
  segments.flatMap Segment.text

@[simp] theorem textOf_nil : textOf [] = [] := rfl

@[simp] theorem textOf_cons (segment : Segment) (segments : List Segment) :
    textOf (segment :: segments) = segment.text ++ textOf segments := rfl

@[simp] theorem textOf_append (segments segments' : List Segment) :
    textOf (segments ++ segments') = textOf segments ++ textOf segments' :=
  List.flatMap_append

/-- Whether a text is made of the same parts as another one from an offset on, but for other string
values, with the same quotes. -/
inductive Refills (fills : Filling) : Nat → List Segment → List Char → Prop
  | nil {offset : Nat} : Refills fills offset [] []
  | plain {offset : Nat} {segments : List Segment} {text : List Char} (chars : List Char)
    (more : Refills fills (offset + byteLength chars) segments text) :
    Refills fills offset (.plain chars :: segments) (chars ++ text)
  | string {offset : Nat} {segments : List Segment} {text : List Char}
    {token token' : StringToken}
    (put : fills ⟨offset, offset + byteLength token.text⟩ (String.ofList token.content)
      (String.ofList token'.content))
    (quote_eq : token.quote = token'.quote)
    (more : Refills fills (offset + byteLength token.text) segments text) :
    Refills fills offset (.string token :: segments) (token'.text ++ text)

theorem Refills.append_inv {fills : Filling} {segments segments' : List Segment} {offset : Nat}
    {text : List Char} (refills : Refills fills offset (segments ++ segments') text) :
    ∃ front back, text = front ++ back ∧ Refills fills offset segments front ∧
      Refills fills (offset + byteLength (textOf segments)) segments' back := by
  induction segments generalizing offset text with
  | nil => exact ⟨[], text, rfl, .nil, refills⟩
  | cons segment segments ih =>
    cases refills with
    | plain chars more =>
      obtain ⟨front, back, rfl, fronts, backs⟩ := ih more
      refine ⟨chars ++ front, back, (List.append_assoc _ _ _).symm, .plain chars fronts, ?_⟩
      rwa [textOf_cons, byteLength_append, ← Nat.add_assoc]
    | string put quote_eq more =>
      obtain ⟨front, back, rfl, fronts, backs⟩ := ih more
      refine ⟨_ ++ front, back, (List.append_assoc _ _ _).symm, .string put quote_eq fronts, ?_⟩
      rwa [textOf_cons, byteLength_append, ← Nat.add_assoc]

theorem StringToken.text_eq_cons (token : StringToken) :
    ∃ more, token.text = token.quote :: more := by
  cases lines_eq : token.lines
  · exact ⟨token.body ++ delimiter token.quote false, by simp [text, delimiter, lines_eq]⟩
  · exact ⟨token.quote :: token.quote :: (token.body ++ delimiter token.quote true),
      by simp [text, delimiter, lines_eq, List.replicate_succ]⟩

theorem Refills.alike {fills : Filling} {segments : List Segment} {offset : Nat} {text : List Char}
    (refills : Refills fills offset segments text) {rest rest' : List Char}
    (alike : AlikeToQuote rest rest') : AlikeToQuote (textOf segments ++ rest) (text ++ rest') := by
  induction refills with
  | nil => exact alike
  | plain chars _ ih =>
    rw [textOf_cons, List.append_assoc, List.append_assoc]
    exact ih.append chars
  | @string offset segments text token token' _ quote_eq _ _ =>
    obtain ⟨more, text_eq⟩ := token.text_eq_cons
    obtain ⟨more', text_eq'⟩ := token'.text_eq_cons
    refine .inr ⟨[], token.quote, more ++ textOf segments ++ rest, more' ++ text ++ rest',
      token.isQuote, ?_, ?_⟩
    · simp [Segment.text, text_eq]
    · simp [text_eq', quote_eq]

/-! ## Readers of refilled texts -/

/-- Whether no quote follows. -/
def NoQuote (rest : List Char) : Prop :=
  ¬Starts IsQuote rest

theorem AlikeToQuote.noQuote {rest rest' : List Char} (alike : AlikeToQuote rest rest')
    (noQuote : NoQuote rest) : NoQuote rest' := by
  rintro ⟨char, more, rfl, isQuote⟩
  have head_eq := alike.head?_eq
  rw [List.head?_cons, List.head?_eq_some_iff] at head_eq
  obtain ⟨more', rfl⟩ := head_eq
  exact noQuote (starts_cons.2 isQuote)

namespace Reader

variable {α β γ : Type}

/-- Whether a reader takes the refilled text of what another one takes, in front of anything that
is alike up to a quote, with a result that is the same in some sense.  What follows may have to
satisfy a condition. -/
def FollowsRefilled (stop : List Char → Prop) (read read' : Reader α)
    (same : Filling → Region → α → α → Prop) : Prop :=
  ∀ ⦃cursor : Cursor⦄ ⦃value : α⦄ ⦃after : Cursor⦄, read cursor = some (value, after) →
    stop after.rest → ∃ segments, Passes cursor after (textOf segments) ∧
      ∀ fills text, Refills fills cursor.offset segments text →
        ∀ rest offset, AlikeToQuote after.rest rest →
          ∃ value', read' ⟨text ++ rest, offset⟩ =
            some (value', ⟨rest, offset + byteLength text⟩) ∧
            same fills ⟨cursor.offset, after.offset⟩ value value'

section FollowsRefilled

variable {stop stop' : List Char → Prop} {read read' : Reader α}

theorem Follows.refilled {same : α → α → Prop} (follows : Follows read read' same) :
    FollowsRefilled stop read read' fun _ _ ↦ same := by
  intro cursor value after ran _
  obtain ⟨taken, passes, again⟩ := follows ran
  refine ⟨[.plain taken], by simpa [Segment.text] using passes,
    fun fills text refills rest offset alike ↦ ?_⟩
  cases refills with
  | plain _ more =>
    cases more
    rw [List.append_nil]
    exact again rest offset alike

namespace FollowsRefilled

variable {same : Filling → α → α → Prop} {same' : Filling → β → β → Prop}

theorem mono {same same' : Filling → Region → α → α → Prop}
    (follows : FollowsRefilled stop read read' same)
    (h : ∀ fills region value value', same fills region value value' →
      same' fills region value value') : FollowsRefilled stop read read' same' := by
  intro cursor value after ran stops
  obtain ⟨segments, passes, again⟩ := follows ran stops
  refine ⟨segments, passes, fun fills text refills rest offset alike ↦ ?_⟩
  obtain ⟨value', ran', isSame⟩ := again fills text refills rest offset alike
  exact ⟨value', ran', h _ _ _ _ isSame⟩

theorem pure {value value' : α} (h : ∀ fills, same fills value value') :
    FollowsRefilled stop (pure value) (pure value') fun fills _ ↦ same fills := by
  intro cursor found after ran _
  obtain ⟨rfl, rfl⟩ := pure_eq_some_iff.1 ran
  refine ⟨[], .refl cursor, fun fills text refills rest offset _ ↦ ?_⟩
  cases refills
  exact ⟨value', rfl, h fills⟩

theorem shrinks {same : Filling → Region → α → α → Prop}
    (follows : FollowsRefilled stop read read' same) ⦃cursor : Cursor⦄ ⦃value : α⦄
    ⦃after : Cursor⦄ (ran : read cursor = some (value, after)) (stops : stop after.rest) :
    after.rest.length ≤ cursor.rest.length := by
  obtain ⟨segments, passes, -⟩ := follows ran stops
  rw [passes.length_eq]
  exact Nat.le_add_left _ _

/-- Two readers, the second of which does not depend on what the first one takes. -/
theorem seq {next next' : Reader β} (join join' : α → β → γ) {joined : Filling → γ → γ → Prop}
    (first : FollowsRefilled stop read read' fun fills _ ↦ same fills)
    (second : FollowsRefilled stop' next next' fun fills _ ↦ same' fills)
    (stops : ∀ cursor result, next cursor = some result → stop cursor.rest)
    (h : ∀ fills x x' y y', same fills x x' → same' fills y y' →
      joined fills (join x y) (join' x' y')) :
    FollowsRefilled stop' (read >>= fun x ↦ next >>= fun y ↦ Pure.pure (join x y))
      (read' >>= fun x ↦ next' >>= fun y ↦ Pure.pure (join' x y)) fun fills _ ↦ joined fills := by
  intro cursor value after ran stopsAfter
  obtain ⟨x, middle, firstRan, ran⟩ := bind_eq_some_iff.1 ran
  obtain ⟨y, _, secondRan, ran⟩ := bind_eq_some_iff.1 ran
  obtain ⟨rfl, rfl⟩ := pure_eq_some_iff.1 ran
  obtain ⟨segments, passes, firstAgain⟩ := first firstRan (stops _ _ secondRan)
  obtain ⟨segments', passes', secondAgain⟩ := second secondRan stopsAfter
  refine ⟨segments ++ segments', by simpa using passes.trans passes',
    fun fills text refills rest offset alike ↦ ?_⟩
  obtain ⟨front, back, rfl, fronts, backs⟩ := refills.append_inv
  rw [← passes.offset_eq] at backs
  obtain ⟨x', firstRan', isSame⟩ := firstAgain fills front fronts (back ++ rest) offset
    (passes'.rest_eq ▸ backs.alike alike)
  obtain ⟨y', secondRan', isSame'⟩ := secondAgain fills back backs rest (offset + byteLength front)
    alike
  refine ⟨join' x' y', ?_, h fills x x' y y' isSame isSame'⟩
  rw [List.append_assoc, byteLength_append, ← Nat.add_assoc]
  exact bind_eq_some_iff.2 ⟨x', _, firstRan', bind_eq_some_iff.2 ⟨y', _, secondRan', rfl⟩⟩

/-- Readers that do the same behind a value that is the same. -/
theorem bind_eq {first first' : Reader β} {next next' : β → Reader α}
    (followsFirst : Follows first first' Eq)
    (second : ∀ value, FollowsRefilled stop (next value) (next' value) fun fills _ ↦ same fills) :
    FollowsRefilled stop (first >>= next) (first' >>= next') fun fills _ ↦ same fills := by
  intro cursor value after ran stops
  obtain ⟨x, middle, firstRan, ran⟩ := bind_eq_some_iff.1 ran
  obtain ⟨taken, passes, firstAgain⟩ := followsFirst firstRan
  obtain ⟨segments, passes', secondAgain⟩ := second x ran stops
  refine ⟨.plain taken :: segments, by simpa [Segment.text] using passes.trans passes',
    fun fills text refills rest offset alike ↦ ?_⟩
  cases refills with
  | @plain _ _ text _ more =>
    rw [← passes.offset_eq] at more
    obtain ⟨_, firstRan', rfl⟩ := firstAgain (text ++ rest) offset
      (passes'.rest_eq ▸ more.alike alike)
    obtain ⟨value', ran', isSame⟩ :=
      secondAgain fills text more rest (offset + byteLength taken) alike
    refine ⟨value', ?_, isSame⟩
    rw [List.append_assoc, byteLength_append, ← Nat.add_assoc]
    exact bind_eq_some_iff.2 ⟨x, _, firstRan', ran'⟩

/-- What is made of a result, if something is. -/
theorem ofOption {same : Filling → Region → α → α → Prop} {same' : Filling → Region → β → β → Prop}
    (make make' : α → Option β) (follows : FollowsRefilled stop read read' same)
    (h : ∀ fills region value value' made, same fills region value value' → make value = some made →
      ∃ made', make' value' = some made' ∧ same' fills region made made') :
    FollowsRefilled stop (read >>= fun value ↦ (make value).elim fail Pure.pure)
      (read' >>= fun value ↦ (make' value).elim fail Pure.pure) same' := by
  intro cursor made after ran stops
  obtain ⟨value, middle, firstRan, ran⟩ := bind_eq_some_iff.1 ran
  cases make_eq : make value with
  | none => rw [make_eq] at ran; cases ran
  | some found =>
    rw [make_eq] at ran
    obtain ⟨rfl, rfl⟩ := pure_eq_some_iff.1 ran
    obtain ⟨segments, passes, again⟩ := follows firstRan stops
    refine ⟨segments, passes, fun fills text refills rest offset alike ↦ ?_⟩
    obtain ⟨value', ran', isSame⟩ := again fills text refills rest offset alike
    obtain ⟨made', make_eq', isSame'⟩ := h _ _ _ _ _ isSame make_eq
    refine ⟨made', bind_eq_some_iff.2 ⟨value', _, ran', ?_⟩, isSame'⟩
    rw [make_eq']
    rfl

theorem map {same : Filling → Region → α → α → Prop} {same' : Filling → Region → β → β → Prop}
    {make make' : α → β} (follows : FollowsRefilled stop read read' same)
    (h : ∀ fills region value value', same fills region value value' →
      same' fills region (make value) (make' value')) :
    FollowsRefilled stop (read >>= fun value ↦ Pure.pure (make value))
      (read' >>= fun value ↦ Pure.pure (make' value)) same' :=
  follows.ofOption (some ∘ make) (some ∘ make')
    fun _ _ _ _ _ isSame eq ↦ ⟨_, rfl, Option.some.inj eq ▸ h _ _ _ _ isSame⟩

theorem ite {condition : Prop} [Decidable condition] {other other' : Reader α}
    {same : Filling → Region → α → α → Prop} (yes : FollowsRefilled stop read read' same)
    (no : FollowsRefilled stop other other' same) :
    FollowsRefilled stop (if condition then read else other)
      (if condition then read' else other') same := by
  split
  · exact yes
  · exact no

/-- What is read may depend on the next character. -/
theorem peek {next next' : Option Char → Reader α} {same : Filling → Region → α → α → Prop}
    (follows : ∀ found, FollowsRefilled stop (next found) (next' found) same) :
    FollowsRefilled stop (peek >>= next) (Reader.peek >>= next') same := by
  intro cursor value after ran stops
  obtain ⟨segments, passes, again⟩ :=
    follows _ (show next cursor.rest.head? cursor = _ from ran) stops
  refine ⟨segments, passes, fun fills text refills rest offset alike ↦ ?_⟩
  have head_eq := (refills.alike alike).head?_eq
  rw [← passes.rest_eq] at head_eq
  obtain ⟨value', ran', isSame⟩ := again fills text refills rest offset alike
  refine ⟨value', ?_, isSame⟩
  rw [head_eq] at ran'
  exact ran'

/-- What is located is the same but for where it stands. -/
theorem located {same : Filling → Region → α → α → Prop}
    (follows : FollowsRefilled stop read read' same) :
    FollowsRefilled stop (located read) (located read') fun fills _ found found' ↦
      same fills found.region found.value found'.value := by
  intro cursor found after ran stops
  obtain ⟨ran, region_eq⟩ := located_eq_some_iff.1 ran
  obtain ⟨segments, passes, again⟩ := follows ran stops
  refine ⟨segments, passes, fun fills text refills rest offset alike ↦ ?_⟩
  obtain ⟨value', ran', isSame⟩ := again fills text refills rest offset alike
  exact ⟨⟨⟨_, _⟩, value'⟩, located_eq_some_iff.2 ⟨ran', rfl⟩, region_eq ▸ isSame⟩

end FollowsRefilled

end FollowsRefilled

end Reader

end SpanScore.Toml
