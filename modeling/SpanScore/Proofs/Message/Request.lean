import SpanScore.Message.Request
import SpanScore.Proofs.Json.Members

/-!
# Requests and the grammar

A request is read from every document that is an object whose keys spell strings, and from no other
bytes.  Each of its spans is the text of the last member with its name.
-/

namespace SpanScore

open Json Json.Grammar

namespace Request

/-- Whether all keys of an object spell strings. -/
def Decodable (entries : List (Literal × Tree)) : Prop :=
  ∀ entry ∈ entries, entry.1.decode?.isSome

@[simp] theorem decodable_nil : Decodable [] := by
  simp [Decodable]

@[simp] theorem decodable_cons (entry : Literal × Tree) (entries : List (Literal × Tree)) :
    Decodable (entry :: entries) ↔ entry.1.decode?.isSome ∧ Decodable entries :=
  List.forall_mem_cons

/-- The span that the value of a member is. -/
def spanOf (value : Tree) : Span :=
  ⟨some (String.ofList value.text)⟩

/-- The name of a member and the span that its value is. -/
def memberOf? (entry : Literal × Tree) : Option (String × Span) :=
  entry.1.decode?.map fun name ↦ (name, spanOf entry.2)

/-- The span of the last member with a name, or the absent one. -/
def lastNamed (name : String) (entries : List (Literal × Tree)) : Span :=
  match (entries.filter fun entry ↦ entry.1.decode? = some name).getLast? with
  | some entry => spanOf entry.2
  | none => .absent

/-- The request among the members of an object. -/
def ofEntries (entries : List (Literal × Tree)) : Request :=
  ⟨lastNamed "span_a" entries, lastNamed "span_b" entries⟩

/-! ## The last member with a name -/

theorem lookup_filterMap (name : String) (entries : List (Literal × Tree)) :
    (entries.filterMap memberOf?).lookup name =
      (entries.filter fun entry ↦ entry.1.decode? = some name).head?.map (spanOf ·.2) := by
  induction entries with
  | nil => rfl
  | cons entry entries ih =>
    cases decoded : entry.1.decode? with
    | none => simpa [memberOf?, decoded] using ih
    | some found =>
      by_cases same : found = name
      · simp [memberOf?, decoded, same]
      · have other : (name == found) = false := by simp [Ne.symm same]
        simpa [memberOf?, decoded, same, List.lookup_cons, other] using ih

/-- Among members that are kept last first, a lookup finds the last one. -/
theorem lookup_reverse (name : String) (entries : List (Literal × Tree)) :
    ((entries.filterMap memberOf?).reverse.lookup name).getD .absent = lastNamed name entries := by
  rw [← List.filterMap_reverse, lookup_filterMap, List.filter_reverse, List.head?_reverse,
    lastNamed]
  cases (entries.filter fun entry ↦ entry.1.decode? = some name).getLast? <;> rfl

theorem ofMembers_reverse (entries : List (Literal × Tree)) :
    ofMembers (entries.filterMap memberOf?).reverse = ofEntries entries := by
  rw [ofMembers, lookup_reverse, lookup_reverse, ofEntries]

/-! ## Members one by one -/

theorem membersFrom_key (found : List (String × Span)) (name : String)
    {text start after : List Char} (colon : Read.colon text = .ok start)
    (skip : Scan.skip [] (skipSpace start) = .ok after) :
    membersFrom found (.key name text) =
      (Members.next after).bind
        (membersFrom ((name, ⟨some (textOf (skipSpace start) after)⟩) :: found)) := by
  rw [membersFrom]
  split
  · simp_all
  · next colon' =>
    rw [colon, Except.ok.injEq] at colon'
    subst colon'
    split
    · simp_all
    · next skip' =>
      rw [skip, Except.ok.injEq] at skip'
      subst skip'
      split
      · next refused => rw [refused, Except.bind]
      · next taken => rw [taken, Except.bind]

/-- One member is taken with the text of its value. -/
theorem membersFrom_member (found : List (String × Span)) (name : String) (gap before : Gap)
    (value : Tree) {tail : List Char} (ends : Scan.EndsNumber tail) :
    membersFrom found (.key name (gap.text ++ ':' :: (before.text ++ (value.text ++ tail)))) =
      (Members.next tail).bind (membersFrom ((name, spanOf value) :: found)) := by
  have start : skipSpace (before.text ++ (value.text ++ tail)) = value.text ++ tail := by
    rw [skipSpace_gap_append, Scan.skipSpace_tree_append]
  have text : textOf (value.text ++ tail) tail = String.ofList value.text := by
    rw [textOf, Scan.take_length_sub_length]
  rw [membersFrom_key found name (Read.colon_text gap _)
    (start.symm ▸ Scan.skip_nil_text value ends), start, text]
  rfl

theorem membersFrom_closed (found : List (String × Span)) (rest : List Char) :
    membersFrom found (.closed rest) = .ok (found, rest) := by
  rw [membersFrom]

/-- Takes the members that start in a text. -/
def takeMembers (found : List (String × Span)) (text : List Char) :
    Except Fault (List (String × Span) × List Char) :=
  (Members.first text).bind (membersFrom found)

/-- A member whose key spells a string is taken, whatever stands behind its value. -/
theorem takeMembers_key (found : List (String × Span)) {key : Key} {name : String}
    (h : key.literal.decode? = some name) (before : Gap) (value : Tree) {tail : List Char}
    (ends : Scan.EndsNumber tail) :
    takeMembers found (key.text ++ (before.text ++ (value.text ++ tail))) =
      (Members.next tail).bind (membersFrom ((name, spanOf value) :: found)) := by
  have opens : Members.first (key.text ++ (before.text ++ (value.text ++ tail))) =
      .ok (.key name (key.after.text ++ ':' :: (before.text ++ (value.text ++ tail)))) :=
    Members.first_eq_ok_iff.2 ⟨key.before, key.literal, by simp [Key.text], h⟩
  rw [takeMembers, opens, Except.bind, membersFrom_member found name key.after before value ends]

/-- A member whose key spells no string is refused. -/
theorem exists_error_of_key (found : List (String × Span)) {key : Key}
    (h : key.literal.decode? = none) (rest : List Char) :
    ∃ fault, takeMembers found (key.text ++ rest) = .error fault := by
  obtain ⟨fault, refused⟩ :=
    Members.exists_error_of_key key.before (key.after.text ++ ':' :: rest) h
  refine ⟨fault, ?_⟩
  have text : key.text ++ rest =
      key.before.text ++ '"' :: (key.literal.body ++ (key.after.text ++ ':' :: rest)) := by
    simp [Key.text]
  rw [takeMembers, text, refused, Except.bind]

theorem next_members (gap : Gap) (members : Grammar.Members) (rest : List Char) :
    Members.next (gap.text ++ ',' :: (members.text ++ rest)) =
      Members.first (members.text ++ rest) := by
  cases members with
  | one key before value after =>
    simp only [Grammar.Members.text, Key.text, List.append_assoc, List.cons_append,
      Members.next_comma]
  | more key before value after more =>
    simp only [Grammar.Members.text, Key.text, List.append_assoc, List.cons_append,
      Members.next_comma]

theorem memberOf?_eq_some {literal : Literal} {name : String} (value : Tree)
    (h : literal.decode? = some name) : memberOf? (literal, value) = some (name, spanOf value) := by
  rw [memberOf?, h, Option.map_some]

/-- The members of an object are taken from the first to the last. -/
theorem takeMembers_text (found : List (String × Span)) (rest : List Char) :
    (members : Grammar.Members) → Decodable members.entries →
      takeMembers found (members.text ++ '\x7d' :: rest) =
        .ok ((members.entries.filterMap memberOf?).reverse ++ found, rest)
  | .one key before value after, decodable => by
    rw [Grammar.Members.entries, decodable_cons] at decodable
    obtain ⟨name, decoded⟩ := Option.isSome_iff_exists.1 decodable.1
    have ends : Scan.EndsNumber (after.text ++ '\x7d' :: rest) :=
      (Scan.endsNumber_cons (by decide)).gap_append after
    rw [Grammar.Members.text, List.append_assoc, List.append_assoc, List.append_assoc,
      takeMembers_key found decoded before value ends, Members.next_closed, Except.bind,
      membersFrom_closed, Grammar.Members.entries,
      List.filterMap_cons_some (memberOf?_eq_some value decoded)]
    rfl
  | .more key before value after more, decodable => by
    rw [Grammar.Members.entries, decodable_cons] at decodable
    obtain ⟨name, decoded⟩ := Option.isSome_iff_exists.1 decodable.1
    have taken := takeMembers_text ((name, spanOf value) :: found) rest more decodable.2
    have ends : Scan.EndsNumber (after.text ++ ',' :: (more.text ++ '\x7d' :: rest)) :=
      (Scan.endsNumber_cons (by decide)).gap_append after
    rw [Grammar.Members.text, List.append_assoc, List.append_assoc, List.append_assoc,
      List.append_assoc, List.cons_append, takeMembers_key found decoded before value ends,
      next_members, ← takeMembers, taken, Grammar.Members.entries,
      List.filterMap_cons_some (memberOf?_eq_some value decoded), List.reverse_cons,
      List.append_assoc]
    rfl

/-- The members of an object are refused where one of their keys spells no string. -/
theorem exists_error_of_members (found : List (String × Span)) (rest : List Char) :
    (members : Grammar.Members) → ¬Decodable members.entries →
      ∃ fault, takeMembers found (members.text ++ '\x7d' :: rest) = .error fault
  | .one key before value after, undecodable => by
    rw [Grammar.Members.entries, decodable_cons] at undecodable
    have refused : key.literal.decode? = none := by
      simpa using undecodable
    rw [Grammar.Members.text, List.append_assoc]
    exact exists_error_of_key found refused _
  | .more key before value after more, undecodable => by
    rw [Grammar.Members.text, List.append_assoc]
    cases decoded : key.literal.decode? with
    | none => exact exists_error_of_key found decoded _
    | some name =>
      rw [Grammar.Members.entries, decodable_cons] at undecodable
      have others : ¬Decodable more.entries := by
        simpa [decoded] using undecodable
      have ends : Scan.EndsNumber (after.text ++ ',' :: (more.text ++ '\x7d' :: rest)) :=
        (Scan.endsNumber_cons (by decide)).gap_append after
      rw [List.append_assoc, List.append_assoc, List.append_assoc, List.cons_append,
        takeMembers_key found decoded before value ends, next_members]
      exact exists_error_of_members ((name, spanOf value) :: found) rest more others

/-- Whatever is taken as members from a key on is derived by the grammar. -/
theorem exists_members {found all : List (String × Span)} {start : Members.Start}
    {rest member : List Char} (h : membersFrom found start = .ok (all, rest))
    (opens : Members.Opens member start) (isKey : ∃ name tail, start = .key name tail) :
    ∃ members : Grammar.Members, member = members.text ++ '\x7d' :: rest ∧
      Decodable members.entries ∧
        all = (members.entries.filterMap memberOf?).reverse ++ found := by
  fun_induction membersFrom found start generalizing member with
  | case1 => simp at isKey
  | case2 => simp at h
  | case3 => simp at h
  | case4 => simp at h
  | case5 found name text start colon after skip following next ih =>
    obtain ⟨before, literal, rfl, decoded⟩ := opens
    obtain ⟨behind, rfl⟩ := Read.exists_gap_of_colon colon
    obtain ⟨ahead, value, rfl, start_eq⟩ := Scan.exists_tree_of_skip_nil skip
    have spells : memberOf? (literal, value) = some (name, spanOf value) :=
      memberOf?_eq_some value decoded
    have span : (⟨some (textOf (value.text ++ after) after)⟩ : Span) = spanOf value := by
      rw [textOf, Scan.take_length_sub_length]
      rfl
    rw [start_eq, span] at h ih
    have continues := Members.next_eq_ok_iff.1 next
    cases following with
    | key second tail =>
      obtain ⟨gap, member, rfl, opens⟩ := continues
      obtain ⟨more, rfl, decodable, rfl⟩ := ih h opens ⟨second, tail, rfl⟩
      refine ⟨.more ⟨before, literal, behind⟩ ahead value gap more, ?_, ?_, ?_⟩
      · simp [Grammar.Members.text, Key.text]
      · simp [Grammar.Members.entries, decoded, decodable]
      · rw [Grammar.Members.entries, List.filterMap_cons_some spells]
        simp
    | closed tail =>
      obtain ⟨gap, rfl⟩ := continues
      rw [membersFrom_closed, Except.ok.injEq, Prod.mk.injEq] at h
      obtain ⟨rfl, rfl⟩ := h
      refine ⟨.one ⟨before, literal, behind⟩ ahead value gap, ?_, ?_, ?_⟩
      · simp [Grammar.Members.text, Key.text]
      · simp [Grammar.Members.entries, decoded]
      · rw [Grammar.Members.entries, List.filterMap_cons_some spells]
        rfl

/-! ## Whole requests -/

theorem members_brace (before : Gap) (text : List Char) :
    members (before.text ++ '\x7b' :: text) = takeMembers [] text := by
  rw [members, skipSpace_gap_append, skipSpace_cons rfl]
  rfl

theorem members_emptyObject (before gap : Gap) (rest : List Char) :
    members (before.text ++ ((Tree.emptyObject gap).text ++ rest)) = .ok ([], rest) := by
  rw [Tree.text, List.cons_append, List.append_assoc, List.singleton_append, members_brace,
    takeMembers, Members.first_closed, Except.bind, membersFrom_closed]

theorem members_object (before : Gap) (inner : Grammar.Members) (rest : List Char) :
    members (before.text ++ ((Tree.object inner).text ++ rest)) =
      takeMembers [] (inner.text ++ '\x7d' :: rest) := by
  rw [Tree.text, List.cons_append, List.append_assoc, List.singleton_append, members_brace]

/-- The members of an object whose keys spell strings are read, last first. -/
theorem members_text (before : Gap) {tree : Tree} {entries : List (Literal × Tree)}
    (h : tree.entries? = some entries) (decodable : Decodable entries) (rest : List Char) :
    members (before.text ++ (tree.text ++ rest)) =
      .ok ((entries.filterMap memberOf?).reverse, rest) := by
  cases tree with
  | emptyObject gap =>
    rw [Tree.entries?, Option.some.injEq] at h
    rw [members_emptyObject, ← h]
    rfl
  | object inner =>
    rw [Tree.entries?, Option.some.injEq] at h
    rw [members_object, takeMembers_text [] rest inner (h ▸ decodable), List.append_nil, h]
  | _ => simp [Tree.entries?] at h

/-- An object with a key that spells no string is refused. -/
theorem exists_error_of_object (before : Gap) {tree : Tree} {entries : List (Literal × Tree)}
    (h : tree.entries? = some entries) (undecodable : ¬Decodable entries) (rest : List Char) :
    ∃ fault, members (before.text ++ (tree.text ++ rest)) = .error fault := by
  cases tree with
  | emptyObject gap =>
    rw [Tree.entries?, Option.some.injEq] at h
    exact absurd (h ▸ decodable_nil) undecodable
  | object inner =>
    rw [Tree.entries?, Option.some.injEq] at h
    rw [members_object]
    exact exists_error_of_members [] rest inner (h ▸ undecodable)
  | _ => simp [Tree.entries?] at h

/-- Whatever is read as members is an object whose keys spell strings. -/
theorem exists_object {text rest : List Char} {all : List (String × Span)}
    (h : members text = .ok (all, rest)) :
    ∃ (before : Gap) (tree : Tree) (entries : List (Literal × Tree)),
      text = before.text ++ (tree.text ++ rest) ∧ tree.entries? = some entries ∧
        Decodable entries ∧
          all = (entries.filterMap memberOf?).reverse := by
  obtain ⟨before, text_eq⟩ := exists_gap text
  unfold members at h
  split at h
  · simp [stop] at h
  · next inner brace =>
    cases first : Members.first inner with
    | error fault => simp [first, bind, Except.bind] at h
    | ok start =>
      simp only [first, bind, Except.bind] at h
      have opens := Members.first_eq_ok_iff.1 first
      cases start with
      | key name tail =>
        obtain ⟨members, rfl, decodable, rfl⟩ := exists_members h opens ⟨name, tail, rfl⟩
        refine ⟨before, .object members, members.entries, ?_, rfl, decodable, by simp⟩
        rw [text_eq, brace]
        simp [Tree.text]
      | closed tail =>
        obtain ⟨gap, rfl⟩ := opens
        rw [membersFrom_closed, Except.ok.injEq, Prod.mk.injEq] at h
        obtain ⟨rfl, rfl⟩ := h
        refine ⟨before, .emptyObject gap, [], ?_, rfl, decodable_nil, rfl⟩
        rw [text_eq, brace]
        simp [Tree.text]
  · simp at h

/-- Bytes that are no request are malformed. -/
theorem exists_malformed {bytes : List UInt8} {failure : Failure}
    (h : ofBytes bytes = .error failure) : ∃ error, failure = .malformed error := by
  unfold ofBytes at h
  split at h
  · simp at h
  · next error _ =>
    rw [Except.error.injEq] at h
    exact ⟨error, h.symm⟩

/-- A text whose members are refused is malformed. -/
theorem exists_error_of_text {text : List Char} {fault : Fault} (h : members text = .error fault) :
    ∃ error, ofBytes (Utf8.encode (String.ofList text)) = .error (.malformed error) := by
  obtain ⟨error, failed⟩ := exists_error_of_readWhole h
  exact ⟨error, by rw [ofBytes, failed]⟩

/-- A document that is an object whose keys spell strings is a request. -/
theorem ofBytes_document {document : Document} {entries : List (Literal × Tree)}
    (isObject : document.tree.entries? = some entries) (decodable : Decodable entries) :
    ofBytes document.bytes = .ok (ofEntries entries) := by
  have read := members_text document.before isObject decodable document.after.text
  have whole := readWhole_eq_ok_iff.2 ⟨document.text, document.after, rfl, read⟩
  rw [ofBytes, Document.bytes, whole]
  dsimp only
  rw [ofMembers_reverse]

/-- A document that is an object with a key that spells no string is malformed. -/
theorem exists_error_of_document {document : Document} {entries : List (Literal × Tree)}
    (isObject : document.tree.entries? = some entries) (undecodable : ¬Decodable entries) :
    ∃ error, ofBytes document.bytes = .error (.malformed error) := by
  obtain ⟨fault, refused⟩ :=
    exists_error_of_object document.before isObject undecodable document.after.text
  exact exists_error_of_text refused

theorem exists_document {bytes : List UInt8} {request : Request} (h : ofBytes bytes = .ok request) :
    ∃ (document : Document) (entries : List (Literal × Tree)), bytes = document.bytes ∧
      document.tree.entries? = some entries ∧ Decodable entries ∧
        request = ofEntries entries := by
  unfold ofBytes at h
  split at h
  · next found whole =>
    rw [Except.ok.injEq] at h
    obtain ⟨text, after, rfl, read⟩ := readWhole_eq_ok_iff.1 whole
    obtain ⟨before, tree, entries, rfl, isObject, decodable, rfl⟩ := exists_object read
    exact ⟨⟨before, tree, after⟩, entries, rfl, isObject, decodable, by rw [← h, ofMembers_reverse]⟩
  · simp at h

/-- A request is read exactly from the documents that are objects whose keys spell strings, and each
of its spans is the text of the last member that has its name once the escapes in the key are read.
-/
theorem ofBytes_eq_ok_iff (bytes : List UInt8) (request : Request) :
    ofBytes bytes = .ok request ↔
      ∃ (document : Document) (entries : List (Literal × Tree)), bytes = document.bytes ∧
        document.tree.entries? = some entries ∧ Decodable entries ∧
          request = ofEntries entries := by
  constructor
  · exact exists_document
  · rintro ⟨document, entries, rfl, isObject, decodable, rfl⟩
    exact ofBytes_document isObject decodable

end Request

end SpanScore
