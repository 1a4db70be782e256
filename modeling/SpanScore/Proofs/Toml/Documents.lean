import SpanScore.Proofs.Toml.Values

/-!
# Documents with other strings in them

A document is a list of lines, each read alike from a text with other strings in it, and the tree
is made of the lines.  Main statement: what is read of a document is made of string values and of
text between them, and with other string values it is read again, to a tree that is the same but
for these.
-/

namespace SpanScore.Toml

namespace Reader

/-! ## Lines -/

/-- Takes a header or a key with its value, by the character that comes first. -/
def lineOf (char : Char) : Reader Line :=
  if char = '[' then header else keyValue

/-- Takes what is behind a line. -/
def behindLine (again : Reader (List Line)) : Reader (List Line) := do
  lineEnd
  again

/-- Takes the lines of a configuration, at most `fuel` of them. -/
def documentFrom : Nat → Reader (List Line)
  | 0 => fail
  | fuel + 1 => do
    lines
    match ← peek with
    | none => return []
    | some char => do
      let line ← lineOf char
      let more ← behindLine (documentFrom fuel)
      return line :: more

theorem document_eq (before : List Line) (fuel : Nat) :
    document before fuel = documentFrom fuel >>= fun found ↦ pure (before.reverse ++ found) := by
  induction fuel generalizing before with
  | zero => rfl
  | succ fuel ih =>
    rw [document, documentFrom, bind_assoc]
    refine bind_congr fun _ ↦ ?_
    rw [bind_assoc]
    refine bind_congr fun found ↦ ?_
    cases found with
    | none => simp
    | some char =>
      simp only [bind_assoc, behindLine, lineOf]
      split <;> refine bind_congr fun line ↦ bind_congr fun _ ↦ ?_ <;> simp [ih]

theorem keyValue_eq : keyValue = binding value >>= fun found ↦
    pure (.entry found.1.1 found.1.2 found.2) := by
  rw [binding_bind]
  rfl

theorem followsRefilled_keyValue :
    FollowsRefilled NoQuote keyValue keyValue fun fills _ ↦ FilledLine fills := by
  rw [keyValue_eq]
  exact (followsRefilled_binding (followsRefilled_located (followsRefilled_valueWithin _))).map
    fun _ _ _ _ same ↦ .entry same.1 same.2

theorem followsRefilled_lineOf (char : Char) :
    FollowsRefilled NoQuote (lineOf char) (lineOf char) fun fills _ ↦ FilledLine fills :=
  .ite (follows_header.refilled.mono fun _ _ _ _ same ↦ .header same) followsRefilled_keyValue

/-- No quote follows where a line has ended. -/
theorem noQuote_of_behindLine {again : Reader (List Line)} {cursor : Cursor}
    {found : List Line × Cursor} (ran : behindLine again cursor = some found) :
    NoQuote cursor.rest := by
  rintro ⟨quote, more, rest_eq, isQuote⟩
  obtain ⟨rest, offset⟩ := cursor
  obtain rfl : rest = quote :: more := rest_eq
  obtain ⟨_, _, endRan, -⟩ := bind_eq_some_iff.1 ran
  obtain rfl | rfl := isQuote <;> cases endRan

/-- A line ends with a character or with the text. -/
theorem lineEnd_cases {cursor after : Cursor} {value : Unit}
    (ran : lineEnd cursor = some (value, after)) :
    after.rest.length < cursor.rest.length ∨ after.rest = [] := by
  obtain ⟨_, middle, blanksRan, ran⟩ := bind_eq_some_iff.1 ran
  obtain ⟨found, behind, newlineRan, ran⟩ := bind_eq_some_iff.1 ran
  have shorter := follows_blanksAndComment.shrinks blanksRan
  cases found with
  | true =>
    obtain ⟨-, rfl⟩ := pure_eq_some_iff.1 ran
    exact .inl (Nat.lt_of_lt_of_le (length_lt_of_takeNewline newlineRan) shorter)
  | false =>
    obtain ⟨head, _, peekRan, ran⟩ := bind_eq_some_iff.1 ran
    cases peekRan
    cases rest_eq : behind.rest with
    | nil =>
      simp only [rest_eq] at ran
      cases ran
      exact .inr rest_eq
    | cons => simp only [rest_eq] at ran; cases ran

theorem documentFrom_lasts : FuelLasts documentFrom := by
  intro fuel
  induction fuel with
  | zero => exact fun _ _ _ ran ↦ nomatch ran
  | succ fuel ih =>
    intro fuel' cursor found ran enough
    obtain ⟨fuel', rfl⟩ : ∃ less, fuel' = less + 1 := ⟨fuel' - 1, by omega⟩
    obtain ⟨_, middle, linesRan, ran⟩ := bind_eq_some_iff.1 ran
    obtain ⟨head, _, peekRan, ran⟩ := bind_eq_some_iff.1 ran
    refine bind_eq_some_iff.2 ⟨_, _, linesRan, bind_eq_some_iff.2 ⟨_, _, peekRan, ?_⟩⟩
    have start := follows_lines.shrinks linesRan
    cases peekRan
    cases rest_eq : middle.rest with
    | nil =>
      simp only [rest_eq, List.head?_nil] at ran ⊢
      exact ran
    | cons char rest =>
      simp only [rest_eq, List.head?_cons] at ran ⊢
      obtain ⟨line, _, lineRan, ran⟩ := bind_eq_some_iff.1 ran
      obtain ⟨more, _, moreRan, ran⟩ := bind_eq_some_iff.1 ran
      refine bind_eq_some_iff.2 ⟨_, _, lineRan, bind_eq_some_iff.2 ⟨_, _, ?_, ran⟩⟩
      have inside := (followsRefilled_lineOf char).shrinks lineRan (noQuote_of_behindLine moreRan)
      obtain ⟨_, behind, endRan, ran⟩ := bind_eq_some_iff.1 moreRan
      refine bind_eq_some_iff.2 ⟨_, _, endRan, ih ran ?_⟩
      have filled : 0 < middle.rest.length := by simp [rest_eq]
      obtain shorter | empty := lineEnd_cases endRan
      · omega
      · rw [empty, List.length_nil]
        omega

theorem followsRefilled_documentFrom (fuel : Nat) :
    FollowsRefilled (fun _ ↦ True) (documentFrom fuel) (documentFrom fuel) fun fills _ ↦
      List.Forall₂ (FilledLine fills) := by
  induction fuel with
  | zero => exact fun _ _ _ ran ↦ nomatch ran
  | succ fuel ih =>
    refine .bind_eq follows_lines fun _ ↦ .peek fun found ↦ ?_
    cases found with
    | none => exact .pure fun _ ↦ .nil
    | some char =>
      have behind : FollowsRefilled (fun _ ↦ True) (behindLine (documentFrom fuel))
          (behindLine (documentFrom fuel)) fun fills _ ↦ List.Forall₂ (FilledLine fills) :=
        .bind_eq follows_lineEnd fun _ ↦ ih
      exact (followsRefilled_lineOf char).seq List.cons List.cons behind
        (fun _ _ ran ↦ noQuote_of_behindLine ran) fun _ _ _ _ _ line more ↦ .cons line more

def whole (fuel : Nat) : Reader (List Line) := do
  discard (takeIf ['\uFEFF'])
  documentFrom fuel

theorem followsRefilled_whole (fuel : Nat) :
    FollowsRefilled (fun _ ↦ True) (whole fuel) (whole fuel) fun fills _ ↦
      List.Forall₂ (FilledLine fills) :=
  .bind_eq (follows_takeIf (by simp [IsQuote])).discard fun _ ↦ followsRefilled_documentFrom fuel

theorem whole_lasts : FuelLasts whole :=
  .bind (follows_takeIf (by simp [IsQuote])).discard.shrinks fun _ ↦ documentFrom_lasts

end Reader

/-! ## Documents -/

theorem parse?_eq_some_iff {text : List Char} {entries : List Entry} :
    parse? text = some entries ↔ ∃ lines after draft,
      Reader.whole (text.length + 1) ⟨text, 0⟩ = some (lines, after) ∧
        lines.foldlM Draft.add ⟨⟨.header, []⟩, []⟩ = some draft ∧ draft.root.entries = entries := by
  have whole_eq (fuel : Nat) : Reader.whole fuel = (do
      discard (Reader.takeIf ['\uFEFF'])
      Reader.document [] fuel) := by
    refine bind_congr fun _ ↦ ?_
    rw [Reader.document_eq]
    exact (bind_pure _).symm
  rw [parse?, whole_eq]
  constructor
  · intro parsed
    obtain ⟨⟨lines, after⟩, linesRan, parsed⟩ := Option.bind_eq_some_iff.1 parsed
    obtain ⟨draft, draftRan, parsed⟩ := Option.bind_eq_some_iff.1 parsed
    exact ⟨lines, after, draft, linesRan, draftRan, Option.some.inj parsed⟩
  · rintro ⟨lines, after, draft, linesRan, draftRan, rfl⟩
    exact Option.bind_eq_some_iff.2 ⟨(lines, after), linesRan,
      Option.bind_eq_some_iff.2 ⟨draft, draftRan, rfl⟩⟩

/-- What is read of a document is made of string values and of text between them.  With other string
values in the same quotes it is read again, to a tree that is the same but for these. -/
theorem parse?_refilled {text : List Char} {entries : List Entry}
    (parsed : parse? text = some entries) :
    ∃ segments, textOf segments = text ∧ ∀ fills text', Refills fills 0 segments text' →
      ∃ entries', parse? text' = some entries' ∧
        List.Forall₂ (FilledEntry fills) entries entries' := by
  obtain ⟨lines, after, draft, linesRan, draftRan, rfl⟩ := parse?_eq_some_iff.1 parsed
  obtain ⟨segments, passes, again⟩ := Reader.followsRefilled_whole _ linesRan trivial
  refine ⟨segments ++ [.plain after.rest], ?_, fun fills text' refills ↦ ?_⟩
  · simpa [Segment.text] using passes.rest_eq.symm
  · obtain ⟨front, back, rfl, fronts, backs⟩ := refills.append_inv
    obtain ⟨lines', linesRan', filledLines⟩ := again fills front fronts back 0 <| by
      cases backs with
      | plain _ more =>
        cases more
        rw [List.append_nil]
        exact .refl after.rest
    have enough : (⟨front ++ back, 0⟩ : Cursor).rest.length < (front ++ back).length + 1 :=
      Nat.lt_succ_self _
    have start : FilledDraft fills ⟨⟨.header, []⟩, []⟩ ⟨⟨.header, []⟩, []⟩ :=
      ⟨⟨rfl, .nil⟩, .nil⟩
    obtain ⟨draft', draftRan', sameRoot, -⟩ := foldlM_add_filled filledLines start draftRan
    exact ⟨_, parse?_eq_some_iff.2 ⟨lines', _, draft', Reader.whole_lasts linesRan' enough,
      draftRan', rfl⟩, sameRoot.2⟩

end SpanScore.Toml
