import Mathlib.Data.List.Induction
import SpanScore.Proofs.Toml.Documents
import SpanScore.Proofs.Toml.Pieces

/-!
# Documents with holes

A document names variables in its strings.  Main statement: when every hole stands in a string value
and every value suits its place, the document with the values is read to the same tree but for the
values in the strings.
-/

namespace SpanScore.Toml

/-- The region of some pieces behind others. -/
def regionOf (outer inner : List Piece) : Region :=
  ⟨byteLength (unfilled outer), byteLength (unfilled outer) + byteLength (unfilled inner)⟩

/-- Whether a tree has a string value at a region. -/
def HasStringAt (entries : List Entry) (region : Region) : Prop :=
  ∃ text, ∃ entry ∈ entries, HasString region text entry.2

/-- Whether every hole of a document stands in a string value of its tree. -/
def HolesInStrings (entries : List Entry) (pieces : List Piece) : Prop :=
  ∀ left name value right, pieces = left ++ .hole name value :: right →
    ∃ outer front back rest, left = outer ++ front ∧ right = back ++ rest ∧
      HasStringAt entries (regionOf outer (front ++ .hole name value :: back))

/-- Whether pieces are a string of a document, with pieces around it. -/
structure IsStringOf (pieces outer : List Piece) (quote : Char) (lines : Bool)
    (body rest : List Piece) : Prop where
  isQuote : IsQuote quote
  pieces_eq : pieces = outer ++ ((delimiter quote lines).map .char ++ body ++
    (delimiter quote lines).map .char) ++ rest
  /-- The quotes on either side are all quotes there. -/
  delimited : lines = false → ¬Starts (· = quote) (unfilled body)

/-- The region of a string, with its quotes. -/
def stringRegion (outer : List Piece) (quote : Char) (lines : Bool) (body : List Piece) : Region :=
  regionOf outer ((delimiter quote lines).map .char ++ body ++ (delimiter quote lines).map .char)

/-- Whether the values of the holes in the string values of a document suit their places. -/
def ValuesSuit (entries : List Entry) (pieces : List Piece) : Prop :=
  ∀ outer quote lines body rest, IsStringOf pieces outer quote lines body rest →
    HasStringAt entries (stringRegion outer quote lines body) → Fits quote lines [] body

/-- Whether the string at a region of a document has some contents, and other ones when the holes in
it are filled. -/
def Fills (pieces : List Piece) (region : Region) (text text' : String) : Prop :=
  ∃ outer quote lines body rest contents, IsStringOf pieces outer quote lines body rest ∧
    region = stringRegion outer quote lines body ∧ Contents quote lines body contents ∧
    text = String.ofList (unfilled contents) ∧ text' = String.ofList (filled contents)

/-! ## Aligned pieces -/

theorem unfilled_ne_nil (piece : Piece) : piece.unfilled ≠ [] := by
  cases piece <;> exact List.cons_ne_nil _ _

theorem eq_nil_of_unfilled {pieces : List Piece} (empty : unfilled pieces = []) : pieces = [] := by
  cases pieces with
  | nil => rfl
  | cons piece pieces =>
    exact absurd (List.append_eq_nil_iff.1 empty).1 (unfilled_ne_nil piece)

/-- Of two beginnings of the same pieces, the one with the longer text goes on where the other one
ends. -/
theorem exists_append_of_length_le {front front' back back' : List Piece}
    (pieces_eq : front ++ back = front' ++ back')
    (h : (unfilled front).length ≤ (unfilled front').length) :
    ∃ between, front' = front ++ between := by
  obtain ⟨between, eq, -⟩ | ⟨between, rfl, -⟩ := List.append_eq_append_iff.1 pieces_eq
  · exact ⟨between, eq⟩
  · rw [unfilled_append, List.length_append] at h
    have empty : unfilled between = [] := List.eq_nil_of_length_eq_zero (by omega)
    obtain rfl := eq_nil_of_unfilled empty
    exact ⟨[], by simp⟩

theorem append_inj_of_byteLength {front front' back back' : List Char}
    (text_eq : front ++ back = front' ++ back') (h : byteLength front = byteLength front') :
    front = front' ∧ back = back' := by
  obtain ⟨between, rfl, rfl⟩ | ⟨between, rfl, rfl⟩ := List.append_eq_append_iff.1 text_eq
  all_goals
    rw [byteLength_append] at h
    obtain rfl : between = [] := by
      by_contra filled
      have := byteLength_pos filled
      omega
    simp

/-- Whether pieces make up parts of a document one by one, the parts with holes being string values
at known regions. -/
inductive Aligned (known : Region → Prop) : Nat → List Segment → List Piece → Prop
  | nil {offset : Nat} : Aligned known offset [] []
  | plain {offset : Nat} {segments : List Segment} {pieces : List Piece} (chars : List Char)
    (more : Aligned known (offset + byteLength chars) segments pieces) :
    Aligned known offset (.plain chars :: segments) (chars.map .char ++ pieces)
  | string {offset : Nat} {segments : List Segment} {token : StringToken}
    {inner pieces : List Piece} (text_eq : unfilled inner = token.text)
    (isKnown : ∀ left name value right, inner = left ++ .hole name value :: right →
      known ⟨offset, offset + byteLength token.text⟩)
    (more : Aligned known (offset + byteLength token.text) segments pieces) :
    Aligned known offset (.string token :: segments) (inner ++ pieces)

/-- Whether every hole stands in a part of a document that is a string value at a known region. -/
def HolesIn (known : Region → Prop) (offset : Nat) (segments : List Segment)
    (pieces : List Piece) : Prop :=
  ∀ left name value right, pieces = left ++ .hole name value :: right →
    ∃ before token behind outer front back rest, segments = before ++ .string token :: behind ∧
      left = outer ++ front ∧ right = back ++ rest ∧ unfilled outer = textOf before ∧
      unfilled (front ++ .hole name value :: back) = token.text ∧
      known ⟨offset + byteLength (textOf before),
        offset + byteLength (textOf before) + byteLength token.text⟩

theorem HolesIn.tail {known : Region → Prop} {offset : Nat} {segment : Segment}
    {segments : List Segment} {inner pieces : List Piece}
    (holes : HolesIn known offset (segment :: segments) (inner ++ pieces))
    (text_eq : unfilled inner = segment.text) :
    HolesIn known (offset + byteLength segment.text) segments pieces := by
  rintro left name value right rfl
  obtain ⟨before, token, behind, outer, front, back, rest, segments_eq, left_eq, right_eq, outer_eq,
    token_eq, isKnown⟩ := holes (inner ++ left) name value right (List.append_assoc _ _ _).symm
  cases before with
  | nil =>
    obtain rfl := eq_nil_of_unfilled outer_eq
    obtain ⟨rfl, -⟩ := List.cons.inj segments_eq
    rw [List.nil_append] at left_eq
    subst left_eq
    have length_eq := congrArg List.length (token_eq.trans text_eq.symm)
    simp only [unfilled_append, unfilled_hole, Substitution.written, List.length_append,
      List.length_cons] at length_eq
    omega
  | cons first before =>
    obtain ⟨rfl, rfl⟩ := List.cons.inj segments_eq
    have longer : (unfilled inner).length ≤ (unfilled outer).length := by
      rw [outer_eq, text_eq, textOf_cons, List.length_append]
      exact Nat.le_add_right _ _
    obtain ⟨outer, rfl⟩ := exists_append_of_length_le left_eq longer
    rw [List.append_assoc, List.append_cancel_left_eq] at left_eq
    rw [unfilled_append, textOf_cons, text_eq, List.append_cancel_left_eq] at outer_eq
    refine ⟨before, token, behind, outer, front, back, rest, rfl, left_eq, right_eq, outer_eq,
      token_eq, ?_⟩
    rwa [textOf_cons, byteLength_append, ← Nat.add_assoc] at isKnown

/-- Text in which no hole begins is characters. -/
theorem exists_chars_of_holes {pieces : List Piece} {front more : List Char}
    (text_eq : unfilled pieces = front ++ more)
    (holes : ∀ left name value right, pieces = left ++ .hole name value :: right →
      front.length ≤ (unfilled left).length) :
    ∃ rest, pieces = front.map .char ++ rest ∧ unfilled rest = more := by
  induction front generalizing pieces with
  | nil => exact ⟨pieces, rfl, text_eq⟩
  | cons char front ih =>
    match pieces with
    | [] => cases text_eq
    | .hole name value :: pieces => exact absurd (holes [] name value pieces rfl) (by simp)
    | .char first :: pieces =>
      obtain ⟨rfl, behind_eq⟩ := List.cons.inj text_eq
      obtain ⟨rest, rfl, rest_eq⟩ := ih behind_eq fun left name value right pieces_eq ↦ by
        have h := holes (.char first :: left) name value right (by rw [pieces_eq]; rfl)
        simpa using h
      exact ⟨rest, rfl, rest_eq⟩

theorem HolesIn.aligned {known : Region → Prop} {offset : Nat} {segments : List Segment}
    {pieces : List Piece} (holes : HolesIn known offset segments pieces)
    (text_eq : unfilled pieces = textOf segments) : Aligned known offset segments pieces := by
  induction segments generalizing offset pieces with
  | nil =>
    obtain rfl := eq_nil_of_unfilled text_eq
    exact .nil
  | cons segment segments ih =>
    by_cases first : ∃ token name value front back rest, segment = .string token ∧
        pieces = front ++ .hole name value :: back ++ rest ∧
        unfilled (front ++ .hole name value :: back) = token.text ∧
        known ⟨offset, offset + byteLength token.text⟩
    · obtain ⟨token, name, value, front, back, rest, rfl, rfl, token_eq, isKnown⟩ := first
      rw [unfilled_append, textOf_cons, token_eq, Segment.text, List.append_cancel_left_eq]
        at text_eq
      exact .string token_eq (fun _ _ _ _ _ ↦ isKnown) (ih (holes.tail token_eq) text_eq)
    · have behind (left : List Piece) (name value : List Char) (right : List Piece)
          (pieces_eq : pieces = left ++ .hole name value :: right) :
          segment.text.length ≤ (unfilled left).length := by
        obtain ⟨before, token, behind, outer, front, back, rest, segments_eq, rfl, rfl, outer_eq,
          token_eq, isKnown⟩ := holes left name value right pieces_eq
        cases before with
        | nil =>
          obtain rfl := eq_nil_of_unfilled outer_eq
          obtain ⟨rfl, -⟩ := List.cons.inj segments_eq
          exact absurd ⟨token, name, value, front, back, rest, rfl, by simp [pieces_eq], token_eq,
            isKnown⟩ first
        | cons head before =>
          obtain ⟨rfl, -⟩ := List.cons.inj segments_eq
          rw [unfilled_append, outer_eq, textOf_cons, List.length_append, List.length_append]
          omega
      obtain ⟨rest, rfl, rest_eq⟩ := exists_chars_of_holes text_eq behind
      have more := ih (holes.tail (unfilled_map_char _)) rest_eq
      cases segment with
      | plain chars => exact .plain chars more
      | string token =>
        refine .string (unfilled_map_char _) (fun left name value right chars_eq ↦ ?_) more
        have mem : Piece.hole name value ∈ token.text.map Piece.char := by
          rw [show token.text.map Piece.char = _ from chars_eq]
          simp
        simp at mem

/-! ## Strings among the pieces -/

/-- Characters behind a text that cannot end a hole are characters of its pieces. -/
theorem exists_chars_behind {pieces : List Piece} {more back : List Char}
    (text_eq : unfilled pieces = more ++ back) (noHole : '\x7d' ∉ back) :
    ∃ rest, pieces = rest ++ back.map .char ∧ unfilled rest = more := by
  induction back using List.reverseRecOn generalizing pieces with
  | nil => exact ⟨pieces, by simp, by simpa using text_eq⟩
  | append_singleton back char ih =>
    rw [List.mem_append, List.mem_singleton, not_or] at noHole
    rw [← List.append_assoc] at text_eq
    obtain rfl | ⟨front, last, rfl⟩ := List.eq_nil_or_concat pieces
    · simp at text_eq
    · cases last with
      | hole name value =>
        rw [List.concat_eq_append, unfilled_append, unfilled_hole, unfilled_nil, List.append_nil,
          Substitution.written, ← List.cons_append, ← List.cons_append, ← List.append_assoc]
          at text_eq
        obtain ⟨-, last_eq⟩ := List.append_inj' text_eq rfl
        exact absurd (List.cons.inj last_eq).1 noHole.2
      | char last =>
        rw [List.concat_eq_append, unfilled_append, unfilled_char, unfilled_nil] at text_eq
        obtain ⟨front_eq, last_eq⟩ := List.append_inj' text_eq rfl
        obtain ⟨rest, rfl, rest_eq⟩ := ih front_eq noHole.1
        obtain rfl : last = char := by simpa using last_eq
        exact ⟨rest, by simp, rest_eq⟩

theorem Spells.delimited {quote : Char} {lines : Bool} {body content : List Char}
    (spells : Spells quote lines body content) (single : lines = false) :
    ¬Starts (· = quote) body := by
  subst single
  cases spells with
  | trimmed several => cases several
  | plain reads =>
    rintro ⟨char, more, rfl, rfl⟩
    cases reads with
    | char stands =>
      cases stands with
      | plain _ other => exact other rfl
      | newline several => cases several
      | carriageReturn several => cases several
      | quotes several => cases several
    | escape basic => cases basic
    | fold basic => cases basic

theorem exists_body {token : StringToken} {inner : List Piece}
    (text_eq : unfilled inner = token.text) :
    ∃ body, inner = (delimiter token.quote token.lines).map .char ++ body ++
      (delimiter token.quote token.lines).map .char ∧ unfilled body = token.body := by
  rw [StringToken.text, List.append_assoc] at text_eq
  obtain ⟨rest, rfl, rest_eq⟩ := exists_chars text_eq (token.isQuote.notMem_replicate (by decide) _)
  obtain ⟨body, rfl, body_eq⟩ :=
    exists_chars_behind rest_eq (token.isQuote.notMem_replicate (by decide) _)
  exact ⟨body, (List.append_assoc _ _ _).symm, body_eq⟩

/-- The parts of a document give way to what their pieces are with the values. -/
theorem Aligned.refills {entries : List Entry} {pieces : List Piece}
    (suit : ValuesSuit entries pieces) {offset : Nat} {segments : List Segment}
    {inner : List Piece} (aligned : Aligned (HasStringAt entries) offset segments inner)
    (outer : List Piece) (pieces_eq : pieces = outer ++ inner)
    (offset_eq : offset = byteLength (unfilled outer)) :
    Refills (Fills pieces) offset segments (filled inner) := by
  induction aligned generalizing outer with
  | nil => exact .nil
  | plain chars _ ih =>
    rw [filled_append, filled_map_char]
    refine .plain chars (ih (outer ++ chars.map .char) (by simp [pieces_eq]) ?_)
    rw [unfilled_append, unfilled_map_char, byteLength_append, offset_eq]
  | @string offset segments token inner rest text_eq isKnown more ih =>
    have behind := ih (outer ++ inner) (by simp [pieces_eq])
      (by rw [unfilled_append, text_eq, byteLength_append, offset_eq])
    obtain ⟨body, rfl, body_eq⟩ := exists_body text_eq
    have isString : IsStringOf pieces outer token.quote token.lines body rest :=
      ⟨token.isQuote, by simp [pieces_eq], fun single ↦ body_eq ▸ token.spells.delimited single⟩
    have region_eq : (⟨offset, offset + byteLength token.text⟩ : Region) =
        stringRegion outer token.quote token.lines body := by
      rw [stringRegion, regionOf, text_eq, offset_eq]
    have fits : Fits token.quote token.lines [] body := by
      rintro left name value right rfl
      refine suit _ _ _ _ _ isString ?_ left name value right rfl
      rw [← region_eq]
      exact isKnown ((delimiter token.quote token.lines).map .char ++ left) name value
        (right ++ (delimiter token.quote token.lines).map .char) (by simp)
    have spells := token.spells
    rw [← body_eq] at spells
    obtain ⟨contents, contentsOf, content_eq, spells⟩ := spells.fill token.isQuote fits
    let token' : StringToken := ⟨token.quote, token.lines, filled body, filled contents,
      token.isQuote, spells⟩
    have text_eq' : filled ((delimiter token.quote token.lines).map .char ++ body ++
        (delimiter token.quote token.lines).map .char) = token'.text := by
      simp [token', StringToken.text]
    rw [filled_append, text_eq']
    refine .string ?_ rfl behind
    exact ⟨outer, token.quote, token.lines, body, rest, contents, isString, region_eq, contentsOf,
      by rw [content_eq], rfl⟩

/-! ## Documents -/

/-- The string value at a region, as a part of a document. -/
def IsPart (segments : List Segment) (region : Region) (token : StringToken) : Prop :=
  ∃ before behind, segments = before ++ .string token :: behind ∧
    region = ⟨byteLength (textOf before), byteLength (textOf before) + byteLength token.text⟩

/-- A document is made of its own parts. -/
theorem refills_self (all before : List Segment) {segments : List Segment}
    (all_eq : all = before ++ segments) :
    Refills (fun region _ _ ↦ ∃ token, IsPart all region token)
      (byteLength (textOf before)) segments (textOf segments) := by
  induction segments generalizing before with
  | nil => exact .nil
  | cons segment segments ih =>
    have behind := ih (before ++ [segment]) (by simp [all_eq])
    rw [textOf_append, byteLength_append, textOf_cons, textOf_nil, List.append_nil] at behind
    cases segment with
    | plain chars => exact .plain chars behind
    | string token => exact .string ⟨token, before, segments, all_eq, rfl⟩ rfl behind

/-- When the holes of a document stand in string values and their values suit, the document with the
values is read to the same tree, but that the holes in each string are filled. -/
theorem parse?_filled {pieces : List Piece} {entries : List Entry}
    (parsed : parse? (unfilled pieces) = some entries) (holes : HolesInStrings entries pieces)
    (suit : ValuesSuit entries pieces) :
    ∃ entries', parse? (filled pieces) = some entries' ∧
      List.Forall₂ (FilledEntry (Fills pieces)) entries entries' := by
  obtain ⟨segments, text_eq, again⟩ := parse?_refilled parsed
  have isPart {region : Region} (has : HasStringAt entries region) :
      ∃ token, IsPart segments region token := by
    obtain ⟨_, _, self⟩ := again _ _ (show Refills _ 0 _ _ from refills_self segments [] rfl)
    obtain ⟨text, entry, mem, has⟩ := has
    obtain ⟨entry', -, filled⟩ := exists_of_forall₂ self mem
    obtain ⟨_, part⟩ := filled.hasString has
    exact part
  have holesIn : HolesIn (HasStringAt entries) 0 segments pieces := by
    intro left name value right pieces_eq
    obtain ⟨outer, front, back, rest, rfl, rfl, has⟩ := holes left name value right pieces_eq
    obtain ⟨token, before, behind, rfl, region_eq⟩ := isPart has
    rw [regionOf, Region.mk.injEq] at region_eq
    obtain ⟨start_eq, stop_eq⟩ := region_eq
    rw [start_eq, Nat.add_left_cancel_iff] at stop_eq
    have texts : unfilled outer ++ (unfilled (front ++ .hole name value :: back) ++ unfilled rest) =
        textOf before ++ (token.text ++ textOf behind) := by
      have text_eq := text_eq.symm
      rw [pieces_eq] at text_eq
      simpa [Segment.text] using text_eq
    obtain ⟨outer_eq, texts⟩ := append_inj_of_byteLength texts start_eq
    obtain ⟨inner_eq, -⟩ := append_inj_of_byteLength texts stop_eq
    refine ⟨before, token, behind, outer, front, back, rest, rfl, rfl, rfl, outer_eq, inner_eq, ?_⟩
    rw [regionOf, outer_eq, inner_eq] at has
    rwa [Nat.zero_add]
  exact again _ _ ((holesIn.aligned text_eq.symm).refills suit [] rfl rfl)

/-! ## Enough for values to suit -/

/-- Where one hole stands among characters, it is the hole. -/
theorem eq_of_single_hole {front back name value name' value' : List Char}
    {left right : List Piece}
    (pieces_eq : front.map .char ++ .hole name value :: back.map .char =
      left ++ .hole name' value' :: right) :
    left = front.map .char ∧ Piece.hole name value = .hole name' value' ∧
      right = back.map .char := by
  induction front generalizing left with
  | nil =>
    cases left with
    | nil =>
      obtain ⟨hole_eq, back_eq⟩ := List.cons.inj pieces_eq
      exact ⟨rfl, hole_eq, back_eq.symm⟩
    | cons first left =>
      have mem : Piece.hole name' value' ∈ back.map Piece.char := by
        rw [(List.cons.inj pieces_eq).2]
        simp
      simp at mem
  | cons char front ih =>
    cases left with
    | nil => cases (List.cons.inj pieces_eq).1
    | cons first left =>
      obtain ⟨rfl, behind_eq⟩ := List.cons.inj pieces_eq
      obtain ⟨rfl, rest_eq⟩ := ih behind_eq
      exact ⟨rfl, rest_eq⟩

/-- A document with one hole has it in a string value if there is one at a region around it. -/
theorem HolesInStrings.single {entries : List Entry} {outer front back rest name value : List Char}
    (has : HasStringAt entries
      (regionOf (outer.map .char) (front.map .char ++ .hole name value :: back.map .char))) :
    HolesInStrings entries (outer.map .char ++
      (front.map .char ++ .hole name value :: back.map .char) ++ rest.map .char) := by
  intro left name' value' right pieces_eq
  have pieces_eq : (outer ++ front).map .char ++ .hole name value :: (back ++ rest).map .char =
      left ++ .hole name' value' :: right := by
    rw [← pieces_eq]
    simp
  obtain ⟨rfl, hole_eq, rfl⟩ := eq_of_single_hole pieces_eq
  cases hole_eq
  exact ⟨_, _, _, _, List.map_append, List.map_append, has⟩

/-- Whether a character stands for itself in every string. -/
def isOrdinary (char : Char) : Bool :=
  Reader.isPlain char && char != '"' && char != '\'' && char != '\\'

theorem stands_of_isOrdinary {quote char : Char} (isQuote : IsQuote quote) (lines : Bool)
    (next : List Char) (ordinary : isOrdinary char = true) : Stands quote lines char next := by
  obtain ⟨⟨⟨isPlain, noDouble⟩, noSingle⟩, unescaped⟩ :
      ((Reader.isPlain char = true ∧ char ≠ '"') ∧ char ≠ '\'') ∧ char ≠ '\\' := by
    simpa [isOrdinary] using ordinary
  exact isQuote.stands_plain lines next isPlain (fun is ↦ is.elim noDouble noSingle) unescaped

/-- In a document without strings of several lines, values of ordinary characters suit. -/
theorem ValuesSuit.of_isOrdinary {entries : List Entry} {pieces : List Piece}
    (oneLine : ∀ quote, IsQuote quote → ¬delimiter quote true <:+: unfilled pieces)
    (ordinary : ∀ name value, .hole name value ∈ pieces → value.all isOrdinary = true) :
    ValuesSuit entries pieces := by
  rintro outer quote lines body rest isString - left name value right rfl
  obtain ⟨isQuote, rfl, -⟩ := isString
  cases lines with
  | true =>
    refine absurd ⟨unfilled outer, ?_, ?_⟩ (oneLine quote isQuote)
    · exact unfilled (left ++ .hole name value :: right) ++ delimiter quote true ++ unfilled rest
    · simp
  | false =>
    refine ⟨fun front char behind value_eq ↦ ?_, nofun, nofun, nofun⟩
    refine stands_of_isOrdinary isQuote false _ ?_
    exact List.all_eq_true.1 (ordinary name value (by simp)) char (by simp [value_eq])

end SpanScore.Toml
