import SpanScore.Proofs.Toml.Strings

/-!
# Strings of several lines

Between three quotes on either side up to two quotes may stand next to each other, and line ends
anywhere.  Main statements: a string is read from exactly the texts that are written as strings are,
whatever follows them but a quote.
-/

namespace SpanScore.Toml.Reader

/-! ## Strings of several lines -/

section Multiline

variable {quote : Char} (read rest : List Char) (fuel offset : Nat)

theorem multilineFrom_plain {char : Char} (isPlain : Reader.isPlain char = true)
    (other : char ≠ quote) (unescaped : quote = '"' → char ≠ '\\') :
    multilineFrom quote read (fuel + 1) ⟨char :: rest, offset⟩ =
      multilineFrom quote (char :: read) fuel ⟨rest, offset + byteLength [char]⟩ := by
  have differs : some char ≠ some quote := fun eq ↦ other (Option.some.inj eq)
  rw [multilineFrom, bind_run (show peek ⟨char :: rest, offset⟩ = some (some char, _) from rfl),
    if_neg differs, bind_run (show next ⟨char :: rest, offset⟩ = some (char, _) from rfl)]
  split
  · rw [if_neg fun basic ↦ unescaped basic rfl]
    rfl
  · rfl
  · cases isPlain
  · rw [if_pos isPlain]
    rfl

theorem multilineFrom_newline (isQuote : IsQuote quote) :
    multilineFrom quote read (fuel + 1) ⟨'\n' :: rest, offset⟩ =
      multilineFrom quote ('\n' :: read) fuel ⟨rest, offset + byteLength ['\n']⟩ := by
  obtain rfl | rfl := isQuote <;> rfl

theorem multilineFrom_carriageReturn (isQuote : IsQuote quote) :
    multilineFrom quote read (fuel + 1) ⟨'\r' :: '\n' :: rest, offset⟩ =
      multilineFrom quote ('\n' :: '\r' :: read) fuel
        ⟨rest, offset + byteLength ['\r'] + byteLength ['\n']⟩ := by
  obtain rfl | rfl := isQuote <;> rfl

theorem multilineFrom_escape :
    multilineFrom '"' read (fuel + 1) ⟨'\\' :: rest, offset⟩ =
      (foldedEscape >>= fun found ↦ match found with
        | some char => multilineFrom '"' (char :: read) fuel
        | none => multilineFrom '"' read fuel) ⟨rest, offset + byteLength ['\\']⟩ := rfl

theorem closing_eq (count : Nat) {rest : List Char} (stops : ¬Starts (· = quote) rest)
    (offset : Nat) :
    closing quote ⟨List.replicate count quote ++ rest, offset⟩ =
      if count < 3 then
        some ((List.replicate count quote, false),
          ⟨rest, offset + byteLength (List.replicate count quote)⟩)
      else some ((List.replicate (min (count - 3) 2) quote, true),
        ⟨List.replicate (count - (min (count - 3) 2 + 3)) quote ++ rest,
          offset + byteLength (List.replicate (min (count - 3) 2 + 3) quote)⟩) := by
  rw [closing, bind_run (show Reader.rest _ = _ from rfl)]
  simp only [length_takeWhile_replicate stops]
  split
  · rw [discard_eq, bind_assoc, bind_run (takeIf_append _ rest offset)]
    rfl
  · have split_eq : List.replicate count quote =
        List.replicate (min (count - 3) 2 + 3) quote ++
          List.replicate (count - (min (count - 3) 2 + 3)) quote := by
      rw [List.replicate_append_replicate]
      congr 1
      omega
    rw [discard_eq, bind_assoc, split_eq, List.append_assoc,
      bind_run (takeIf_append _ _ offset)]
    rfl

theorem multilineFrom_quote {count : Nat} (some_quote : 0 < count) :
    multilineFrom quote read (fuel + 1) ⟨List.replicate count quote ++ rest, offset⟩ =
      (closing quote >>= fun found ↦
        if found.2 then pure (String.ofList (found.1 ++ read).reverse)
        else multilineFrom quote (found.1 ++ read) fuel)
        ⟨List.replicate count quote ++ rest, offset⟩ := by
  obtain ⟨count, rfl⟩ : ∃ less, count = less + 1 := ⟨count - 1, by omega⟩
  rw [multilineFrom, bind_run (show peek ⟨List.replicate (count + 1) quote ++ rest, offset⟩ =
    some (some quote, _) from rfl), if_pos rfl]

/-- One or two quotes stand for themselves. -/
theorem multilineFrom_quotes {count : Nat} (some_quote : 0 < count) (few : count < 3)
    (stops : ¬Starts (· = quote) rest) :
    multilineFrom quote read (fuel + 1) ⟨List.replicate count quote ++ rest, offset⟩ =
      multilineFrom quote (List.replicate count quote ++ read) fuel
        ⟨rest, offset + byteLength (List.replicate count quote)⟩ := by
  rw [multilineFrom_quote _ _ _ _ some_quote,
    bind_run ((closing_eq count stops offset).trans (if_pos few))]
  rfl

/-- Three to five quotes end a string, and all but three of them belong to it. -/
theorem multilineFrom_ends {count : Nat} (many : 3 ≤ count) (few : count ≤ 5)
    (stops : ¬Starts (· = quote) rest) :
    multilineFrom quote read (fuel + 1) ⟨List.replicate count quote ++ rest, offset⟩ =
      some (String.ofList (read.reverse ++ List.replicate (count - 3) quote),
        ⟨rest, offset + byteLength (List.replicate count quote)⟩) := by
  have inner : min (count - 3) 2 = count - 3 := by omega
  have all : count - 3 + 3 = count := by omega
  have closes := (closing_eq count stops offset).trans (if_neg (by omega))
  rw [inner, all, Nat.sub_self] at closes
  rw [multilineFrom_quote _ _ _ _ (by omega), bind_run closes]
  simp only [↓reduceIte, List.reverse_append, List.reverse_replicate]
  rfl

/-- The quotes of a string can be taken one by one, unless they end it. -/
theorem exists_multilineFrom_quote (few : (rest.takeWhile (· == quote)).length ≤ 4)
    (inside : (rest.takeWhile (· == quote)).length ≠ 2) :
    ∃ fuel', fuel ≤ fuel' ∧ multilineFrom quote read (fuel + 1) ⟨quote :: rest, offset⟩ =
      multilineFrom quote (quote :: read) fuel' ⟨rest, offset + byteLength [quote]⟩ := by
  obtain ⟨behind, rest_eq, stops⟩ := exists_replicate quote rest
  generalize (rest.takeWhile (· == quote)).length = count at few inside rest_eq
  subst rest_eq
  have all : quote :: (List.replicate count quote ++ behind) =
      List.replicate (count + 1) quote ++ behind := rfl
  rw [all]
  obtain rfl | rfl | many : count = 0 ∨ count = 1 ∨ 3 ≤ count := by omega
  · exact ⟨fuel, le_rfl, multilineFrom_quotes _ _ _ _ (by omega) (by omega) stops⟩
  · refine ⟨fuel + 1, Nat.le_succ fuel, ?_⟩
    rw [multilineFrom_quotes _ _ _ _ (by omega) (by omega) stops,
      multilineFrom_quotes _ _ _ _ (by omega) (by omega) stops]
    simp [byteLength_cons, Nat.add_assoc]
  · refine ⟨fuel + 1, Nat.le_succ fuel, ?_⟩
    rw [multilineFrom_ends _ _ _ _ (by omega) (by omega) stops,
      multilineFrom_ends _ _ _ _ (by omega) (by omega) stops]
    have more : count + 1 - 3 = count - 3 + 1 := by omega
    simp [more, List.replicate_succ, byteLength_cons, Nat.add_assoc]

/-- Behind what has up to two quotes in a row, the quotes that end a string make no difference. -/
theorem takeWhile_quotes {body : List Char} (few : (body.takeWhile (· == quote)).length ≤ 1)
    (stops : ¬Starts (· = quote) rest) :
    ((body ++ List.replicate 3 quote ++ rest).takeWhile (· == quote)).length ≤ 4 ∧
      ((body ++ List.replicate 3 quote ++ rest).takeWhile (· == quote)).length ≠ 2 := by
  obtain ⟨behind, body_eq, behindStops⟩ := exists_replicate quote body
  generalize (body.takeWhile (· == quote)).length = count at few body_eq
  subst body_eq
  cases behind with
  | nil =>
    rw [List.append_nil, List.replicate_append_replicate, length_takeWhile_replicate stops]
    omega
  | cons char behind =>
    rw [List.append_assoc, List.append_assoc,
      length_takeWhile_replicate (by simpa using behindStops)]
    omega

/-- A character that stands for itself is taken. -/
theorem exists_multilineFrom_char (isQuote : IsQuote quote) {char : Char} {body : List Char}
    (stands : Stands quote true char body) (stops : ¬Starts (· = quote) rest) :
    ∃ fuel', fuel ≤ fuel' ∧
      multilineFrom quote read (fuel + 1)
          ⟨char :: (body ++ List.replicate 3 quote ++ rest), offset⟩ =
        multilineFrom quote (char :: read) fuel'
          ⟨body ++ List.replicate 3 quote ++ rest, offset + byteLength [char]⟩ := by
  cases stands with
  | plain isPlain other unescaped =>
    exact ⟨fuel, le_rfl, multilineFrom_plain _ _ _ _ isPlain other unescaped⟩
  | newline => exact ⟨fuel, le_rfl, multilineFrom_newline _ _ _ _ isQuote⟩
  | carriageReturn =>
    exact ⟨fuel + 1, Nat.le_succ fuel, (multilineFrom_carriageReturn _ _ _ _ isQuote).trans
      (multilineFrom_newline _ _ _ _ isQuote).symm⟩
  | quotes _ few =>
    obtain ⟨few, inside⟩ := takeWhile_quotes rest few stops
    exact exists_multilineFrom_quote read _ fuel offset few inside

theorem multilineFrom_complete (isQuote : IsQuote quote) {body content : List Char}
    (reads : Reads quote true body content) (stops : ¬Starts (· = quote) rest)
    (enough : body.length < fuel) :
    multilineFrom quote read fuel ⟨body ++ List.replicate 3 quote ++ rest, offset⟩ =
      some (String.ofList (read.reverse ++ content),
        ⟨rest, offset + byteLength (body ++ List.replicate 3 quote)⟩) := by
  induction reads generalizing read fuel offset with
  | nil =>
    obtain ⟨fuel, rfl⟩ : ∃ less, fuel = less + 1 := ⟨fuel - 1, by omega⟩
    have ends := multilineFrom_ends read rest fuel offset le_rfl (by omega) stops
    simpa using ends
  | @char char body content stands more ih =>
    rw [List.length_cons] at enough
    obtain ⟨fuel, rfl⟩ : ∃ less, fuel = less + 1 := ⟨fuel - 1, by omega⟩
    obtain ⟨fuel', moreFuel, step⟩ :=
      exists_multilineFrom_char read rest fuel offset isQuote stands stops
    rw [List.cons_append, List.cons_append, step, ih _ fuel' _ (by omega)]
    simp [byteLength_append, byteLength_cons, Nat.add_assoc]
  | @escape escaped body content char basic escapes more ih =>
    subst basic
    rw [List.length_cons, List.length_append] at enough
    obtain ⟨fuel, rfl⟩ : ∃ less, fuel = less + 1 := ⟨fuel - 1, by omega⟩
    have text_eq : '\\' :: (escaped ++ body) ++ List.replicate 3 '"' ++ rest =
        '\\' :: (escaped ++ (body ++ List.replicate 3 '"' ++ rest)) := by simp
    rw [text_eq, multilineFrom_escape, bind_run (foldedEscape_of_escapes escapes _ _)]
    dsimp only
    rw [ih _ fuel _ (by omega)]
    simp [byteLength_append, byteLength_cons, Nat.add_assoc]
  | @fold white body content basic _ folds bodyStops more ih =>
    subst basic
    rw [List.length_cons, List.length_append] at enough
    obtain ⟨fuel, rfl⟩ : ∃ less, fuel = less + 1 := ⟨fuel - 1, by omega⟩
    have whiteStops : ¬Starts IsWhite (body ++ List.replicate 3 '"' ++ rest) := by
      cases body with
      | nil => simp [IsWhite, isBlank, List.replicate_succ]
      | cons char body => simpa using bodyStops
    have text_eq : '\\' :: (white ++ body) ++ List.replicate 3 '"' ++ rest =
        '\\' :: (white ++ (body ++ List.replicate 3 '"' ++ rest)) := by simp
    rw [text_eq, multilineFrom_escape, bind_run (foldedEscape_of_folds folds whiteStops _)]
    dsimp only
    rw [ih _ fuel _ (by omega)]
    simp [byteLength_append, byteLength_cons, Nat.add_assoc]

/-- A run of up to two quotes stands for itself in front of what does not go on with a quote. -/
theorem reads_quotes {body content : List Char} (reads : Reads quote true body content)
    (stops : ¬Starts (· = quote) body) {count : Nat} (few : count ≤ 2) :
    Reads quote true (List.replicate count quote ++ body)
      (List.replicate count quote ++ content) := by
  have run (count : Nat) (few : count ≤ 1) :
      ((List.replicate count quote ++ body).takeWhile (· == quote)).length ≤ 1 := by
    rwa [length_takeWhile_replicate stops]
  obtain rfl | rfl | rfl : count = 0 ∨ count = 1 ∨ count = 2 := by omega
  · exact reads
  · exact .char (.quotes rfl (run 0 (by omega))) reads
  · exact .char (.quotes rfl (run 1 le_rfl)) (.char (.quotes rfl (run 0 (by omega))) reads)

/-- The contents of a string do not begin with a part of a line end. -/
theorem not_starts_newline (isQuote : IsQuote quote) {body content rest : List Char}
    (reads : Reads quote true body content)
    (maximal : ∀ newline, IsNewline newline → ¬newline <+: body ++ rest) :
    ¬Starts (fun char ↦ char = '\n' ∨ char = '\r') body := by
  rintro ⟨char, more, rfl, rfl | rfl⟩
  · exact maximal ['\n'] (.inl rfl) ⟨more ++ rest, rfl⟩
  · cases reads with
    | char stands =>
      cases stands with
      | plain isPlain => cases isPlain
      | @carriageReturn next => exact maximal ['\r', '\n'] (.inr rfl) ⟨next ++ rest, rfl⟩
      | quotes => obtain h | h := isQuote <;> cases h

theorem not_starts_white (isQuote : IsQuote quote) {body content rest : List Char}
    (reads : Reads quote true body content) (stops : ¬Starts (isBlank · = true) (body ++ rest))
    (maximal : ∀ newline, IsNewline newline → ¬newline <+: body ++ rest) :
    ¬Starts IsWhite body := by
  rintro ⟨char, more, rfl, blank | newline⟩
  · exact stops (starts_cons.2 blank)
  · exact not_starts_newline isQuote reads maximal (starts_cons.2 newline)

/-- Whether the rest of a string, up to its end, has the contents that a text has behind what has
been `read` of it. -/
def TakesRest (quote : Char) (read : List Char) (cursor after : Cursor) (text : String) : Prop :=
  ∃ body content, Passes cursor after (body ++ List.replicate 3 quote) ∧
    Reads quote true body content ∧ text = String.ofList (read.reverse ++ content)

/-- What is taken first is a part of the rest of a string. -/
theorem TakesRest.behind {read taken contents : List Char} {cursor middle after : Cursor}
    {text : String} (takes : TakesRest quote (contents.reverse ++ read) middle after text)
    (passes : Passes cursor middle taken)
    (joins : ∀ body content, Passes middle after (body ++ List.replicate 3 quote) →
      Reads quote true body content → Reads quote true (taken ++ body) (contents ++ content)) :
    TakesRest quote read cursor after text := by
  obtain ⟨body, content, passes', reads, rfl⟩ := takes
  refine ⟨taken ++ body, contents ++ content, ?_, joins body content passes' reads, by simp⟩
  rw [List.append_assoc]
  exact passes.trans passes'

/-- What is read behind a character that is no quote, if the rest of a string is read soundly. -/
theorem multilineFrom_cons_sound {char : Char} {read rest : List Char} {fuel offset : Nat}
    {after : Cursor} {text : String} (isQuote : IsQuote quote) (other : char ≠ quote)
    (ran : multilineFrom quote read (fuel + 1) ⟨char :: rest, offset⟩ = some (text, after))
    (sound : ∀ {read : List Char} {cursor : Cursor} {text : String},
      multilineFrom quote read fuel cursor = some (text, after) →
      TakesRest quote read cursor after text) :
    TakesRest quote read ⟨char :: rest, offset⟩ after text := by
  have differs : some char ≠ some quote := fun eq ↦ other (Option.some.inj eq)
  have first : Passes ⟨char :: rest, offset⟩ ⟨rest, offset + byteLength [char]⟩ [char] := ⟨rfl, rfl⟩
  rw [multilineFrom, bind_run (show peek ⟨char :: rest, offset⟩ = some (some char, _) from rfl),
    if_neg differs, bind_run (next_eq_some_iff.2 first)] at ran
  split at ran
  · split at ran
    · next basic =>
      obtain ⟨found, middle, escapeRan, ran⟩ := bind_eq_some_iff.1 ran
      obtain ⟨value, escaped, rfl, passes, escapes⟩ | ⟨white, rfl, passes, folds, stops, maximal⟩ :=
        foldedEscape_sound escapeRan
      · have takes : TakesRest quote ([value].reverse ++ read) middle after text := sound ran
        exact takes.behind (first.trans passes) fun _ _ _ reads ↦ .escape basic escapes reads
      · have takes : TakesRest quote ([].reverse ++ read) middle after text := sound ran
        refine takes.behind (first.trans passes) fun body content passes' reads ↦
          .fold basic rfl folds ?_ reads
        rw [passes'.rest_eq, List.append_assoc] at stops maximal
        exact not_starts_white isQuote reads stops maximal
    · next literal =>
      have takes : TakesRest quote (['\\'].reverse ++ read) _ after text := sound ran
      exact takes.behind first fun _ _ _ reads ↦
        .char (.plain (by decide) other fun basic ↦ absurd basic literal) reads
  · have takes : TakesRest quote (['\n'].reverse ++ read) _ after text := sound ran
    exact takes.behind first fun _ _ _ reads ↦ .char (.newline rfl) reads
  · obtain ⟨_, middle, newlineRan, ran⟩ := bind_eq_some_iff.1 ran
    have takes : TakesRest quote (['\r', '\n'].reverse ++ read) middle after text := sound ran
    exact takes.behind (first.trans (passes_of_exactly newlineRan)) fun _ _ _ reads ↦
      .char (.carriageReturn rfl) (.char (.newline rfl) reads)
  · split at ran
    · next unescaped _ _ isPlain =>
      have takes : TakesRest quote ([char].reverse ++ read) _ after text := sound ran
      exact takes.behind first fun _ _ _ reads ↦
        .char (.plain isPlain other fun _ ↦ unescaped) reads
    · cases ran

theorem multilineFrom_sound {read : List Char} {fuel : Nat} {cursor after : Cursor}
    {text : String} (isQuote : IsQuote quote)
    (ran : multilineFrom quote read fuel cursor = some (text, after))
    (stops : ¬Starts (· = quote) after.rest) : TakesRest quote read cursor after text := by
  induction fuel generalizing read cursor text with
  | zero => cases ran
  | succ fuel ih =>
    obtain ⟨rest, offset⟩ := cursor
    obtain ⟨behind, rest_eq, behindStops⟩ := exists_replicate quote rest
    generalize (rest.takeWhile (· == quote)).length = count at rest_eq
    subst rest_eq
    obtain rfl | few | many | tooMany :
      count = 0 ∨ (0 < count ∧ count < 3) ∨ (3 ≤ count ∧ count ≤ 5) ∨ 5 < count := by omega
    · cases behind with
      | nil => cases ran
      | cons char behind =>
        have other : char ≠ quote := by simpa using behindStops
        exact multilineFrom_cons_sound isQuote other ran fun ran ↦ ih ran
    · rw [multilineFrom_quotes _ _ _ _ few.1 few.2 behindStops] at ran
      have takes : TakesRest quote ((List.replicate count quote).reverse ++ read)
          ⟨behind, offset + byteLength (List.replicate count quote)⟩ after text := by
        rw [List.reverse_replicate]
        exact ih ran
      refine takes.behind ⟨rfl, rfl⟩ fun body content passes reads ↦
        reads_quotes reads ?_ (by omega)
      rintro ⟨char, more, rfl, isKind⟩
      rw [show behind = _ from passes.rest_eq] at behindStops
      exact behindStops (starts_cons.2 isKind)
    · rw [multilineFrom_ends _ _ _ _ many.1 many.2 behindStops] at ran
      cases ran
      refine ⟨List.replicate (count - 3) quote, List.replicate (count - 3) quote, ?_, ?_, rfl⟩
      · rw [List.replicate_append_replicate, Nat.sub_add_cancel many.1]
        exact ⟨rfl, rfl⟩
      · simpa using reads_quotes (.nil : Reads quote true [] []) (by simp) (by omega)
    · -- of more than five quotes some are left behind the string
      exfalso
      rw [multilineFrom_quote _ _ _ _ (by omega),
        bind_run ((closing_eq count behindStops offset).trans (if_neg (by omega)))] at ran
      cases ran
      obtain ⟨left, left_eq⟩ : ∃ left, count - (min (count - 3) 2 + 3) = left + 1 :=
        ⟨count - 6, by omega⟩
      exact stops (by rw [left_eq]; exact starts_cons.2 rfl)

theorem multiline_complete (isQuote : IsQuote quote) {body content : List Char}
    (spells : Spells quote true body content) (stops : ¬Starts (· = quote) rest) :
    multiline quote ⟨body ++ List.replicate 3 quote ++ rest, offset⟩ =
      some (String.ofList content,
        ⟨rest, offset + byteLength (body ++ List.replicate 3 quote)⟩) := by
  cases spells with
  | plain reads unbroken =>
    have other : ¬Starts (fun char ↦ char = '\n' ∨ char = '\r')
        (body ++ List.replicate 3 quote ++ rest) := by
      cases body with
      | nil => obtain rfl | rfl := isQuote <;> simp [List.replicate_succ]
      | cons char body => simpa using unbroken rfl
    rw [multiline, discard_eq, bind_assoc, bind_run (takeNewline_of_not_starts other offset)]
    exact multilineFrom_complete _ _ _ _ isQuote reads stops
      (by simp only [List.length_append]; omega)
  | @trimmed newline body content _ isNewline reads =>
    rw [multiline, discard_eq, bind_assoc, List.append_assoc, List.append_assoc,
      bind_run (takeNewline_append isNewline _ offset)]
    have read := multilineFrom_complete [] rest
      ((body ++ (List.replicate 3 quote ++ rest)).length + 1) (offset + byteLength newline)
      isQuote reads stops (by simp only [List.length_append]; omega)
    rw [List.append_assoc] at read
    refine read.trans ?_
    simp [byteLength_append, Nat.add_assoc]

theorem multiline_sound {cursor after : Cursor} {text : String} (isQuote : IsQuote quote)
    (ran : multiline quote cursor = some (text, after)) (stops : ¬Starts (· = quote) after.rest) :
    ∃ body content, Passes cursor after (body ++ List.replicate 3 quote) ∧
      Spells quote true body content ∧ text = String.ofList content := by
  rw [multiline, discard_eq, bind_assoc] at ran
  obtain ⟨found, middle, newlineRan, ran⟩ := bind_eq_some_iff.1 ran
  obtain ⟨body, content, passes, reads, rfl⟩ :=
    multilineFrom_sound isQuote (show multilineFrom quote [] _ middle = _ from ran) stops
  obtain ⟨-, taken | taken⟩ | ⟨-, rfl, other, other'⟩ := takeNewline_cases newlineRan
  · exact ⟨_, content, (List.append_assoc _ _ _).symm ▸ taken.trans passes,
      .trimmed rfl (.inl rfl) reads, rfl⟩
  · exact ⟨_, content, (List.append_assoc _ _ _).symm ▸ taken.trans passes,
      .trimmed rfl (.inr rfl) reads, rfl⟩
  · refine ⟨body, content, passes, .plain reads fun _ ↦ ?_, rfl⟩
    have maximal : ∀ newline, IsNewline newline →
        ¬newline <+: body ++ (List.replicate 3 quote ++ after.rest) := by
      rw [← List.append_assoc, ← passes.rest_eq]
      rintro newline (rfl | rfl)
      · exact other
      · exact other'
    exact not_starts_newline isQuote reads maximal

end Multiline

/-! ## Strings -/

theorem string_eq (cursor : Cursor) :
    string cursor = (takeIf (List.replicate 3 '"') >>= fun found ↦
      if found then multiline '"'
      else takeIf (List.replicate 3 '\'') >>= fun found ↦
        if found then multiline '\'' else line) cursor := rfl

theorem not_replicate_of_ne {quote other : Char} (differs : quote ≠ other)
    (rest : List Char) : ¬List.replicate 3 quote <+: other :: rest :=
  fun ⟨_, written⟩ ↦ differs (List.cons.inj written).1

/-- A string of one line does not begin with three quotes. -/
theorem not_replicate_of_reads {quote : Char} {body content rest : List Char}
    (reads : Reads quote false body content) (stops : ¬Starts (· = quote) rest) :
    ¬List.replicate 3 quote <+: quote :: (body ++ quote :: rest) := by
  rintro ⟨more, written⟩
  have written := (List.cons.inj written).2
  cases reads with
  | nil => exact stops ⟨quote, more, (List.cons.inj written).2.symm, rfl⟩
  | char stands =>
    cases stands with
    | plain isPlain other => exact other (List.cons.inj written).1.symm
    | newline several => cases several
    | carriageReturn several => cases several
    | quotes several => cases several
  | escape basic =>
    subst basic
    cases (List.cons.inj written).1
  | fold _ several => cases several

theorem string_complete (token : StringToken) {rest : List Char} (stops : ¬Starts IsQuote rest)
    (offset : Nat) :
    string ⟨token.text ++ rest, offset⟩ =
      some (String.ofList token.content, ⟨rest, offset + byteLength token.text⟩) := by
  obtain ⟨quote, lines, body, content, isQuote, spells⟩ := token
  have stops' : ¬Starts (· = quote) rest := fun h ↦ stops (h.mono fun _ eq ↦ eq ▸ isQuote)
  rw [string_eq]
  cases lines with
  | true =>
    have read := multiline_complete rest (offset + byteLength (List.replicate 3 quote)) isQuote
      spells stops'
    have text_eq : StringToken.text ⟨quote, true, body, content, isQuote, spells⟩ =
        List.replicate 3 quote ++ (body ++ List.replicate 3 quote) := List.append_assoc _ _ _
    rw [text_eq, List.append_assoc, byteLength_append, ← Nat.add_assoc]
    obtain rfl | rfl := isQuote
    · rw [bind_run (takeIf_append _ _ _)]
      exact read
    · rw [bind_run (takeIf_other (not_replicate_of_ne (by decide) _))]
      simp only [Bool.false_eq_true, ↓reduceIte]
      rw [bind_run (takeIf_append _ _ _)]
      exact read
  | false =>
    cases spells with
    | plain reads =>
      have own := not_replicate_of_reads reads stops'
      have text_eq : StringToken.text ⟨quote, false, body, content, isQuote, .plain reads nofun⟩ ++
          rest = quote :: (body ++ quote :: rest) := by simp [StringToken.text, delimiter]
      rw [text_eq]
      have read : line ⟨quote :: (body ++ quote :: rest), offset⟩ =
          some (String.ofList content, ⟨rest, offset +
            byteLength (quote :: (body ++ [quote]))⟩) := line_complete isQuote reads rest offset
      obtain rfl | rfl := isQuote
      · rw [bind_run (takeIf_other own)]
        simp only [Bool.false_eq_true, ↓reduceIte]
        rw [bind_run (takeIf_other (not_replicate_of_ne (by decide) _))]
        exact read
      · rw [bind_run (takeIf_other (not_replicate_of_ne (by decide) _))]
        simp only [Bool.false_eq_true, ↓reduceIte]
        rw [bind_run (takeIf_other own)]
        exact read
    | trimmed several => cases several

theorem string_sound {cursor after : Cursor} {text : String}
    (ran : string cursor = some (text, after)) (stops : ¬Starts IsQuote after.rest) :
    ∃ token : StringToken, Passes cursor after token.text ∧ text = String.ofList token.content := by
  have stopsAt {quote : Char} (isQuote : IsQuote quote) : ¬Starts (· = quote) after.rest :=
    fun h ↦ stops (h.mono fun _ eq ↦ eq ▸ isQuote)
  have several {quote : Char} (isQuote : IsQuote quote) {middle : Cursor}
      (opens : Passes cursor middle (List.replicate 3 quote))
      (ran : multiline quote middle = some (text, after)) :
      ∃ token : StringToken, Passes cursor after token.text ∧
        text = String.ofList token.content := by
    obtain ⟨body, content, passes, spells, rfl⟩ := multiline_sound isQuote ran (stopsAt isQuote)
    refine ⟨⟨quote, true, body, content, isQuote, spells⟩, ?_, rfl⟩
    rw [StringToken.text, List.append_assoc]
    exact opens.trans passes
  rw [string_eq] at ran
  obtain ⟨found, middle, firstRan, ran⟩ := bind_eq_some_iff.1 ran
  obtain ⟨rfl, opens⟩ | ⟨rfl, rfl, -⟩ := takeIf_cases firstRan
  · exact several (.inl rfl) opens ran
  · obtain ⟨found, middle, secondRan, ran⟩ := bind_eq_some_iff.1 ran
    obtain ⟨rfl, opens⟩ | ⟨rfl, rfl, -⟩ := takeIf_cases secondRan
    · exact several (.inr rfl) opens ran
    · obtain ⟨quote, body, content, isQuote, passes, reads, rfl⟩ := line_sound ran
      refine ⟨⟨quote, false, body, content, isQuote, .plain reads nofun⟩, ?_, rfl⟩
      simpa [StringToken.text, delimiter] using passes

end SpanScore.Toml.Reader
