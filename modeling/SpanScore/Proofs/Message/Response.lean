import SpanScore.Message.Response
import SpanScore.Proofs.Json.Doubles
import SpanScore.Proofs.Json.Lookup
import SpanScore.Proofs.Json.Print

/-!
# Reading responses

A response has a similarity when it is one JSON document with a value, an object whose last member
named `similarity` is a number, or when it is a wrapper that holds such a document; nothing else
about it matters.
-/

namespace SpanScore.Response

open Json Json.Grammar

/-- A response answers with a number when it is one document that has a value, and an object whose
last member named `similarity` means this number.  A wrapper answers with what the text in it
answers with. -/
inductive Answers : List UInt8 → Number → Prop
  | member {document : Document} {entries : List (Literal × Tree)} {member : Tree} {number : Number}
    (readable : (document.tree.value? 0).isSome) (plain : ¬document.tree.IsWrapper)
    (isObject : document.tree.entries? = some entries)
    (last : lastNamed? "similarity" entries = some member)
    (means : member.value? 1 = some (.number number)) : Answers document.bytes number
  | inner {document : Document} {text : String} {number : Number}
    (wraps : document.tree.IsWrapper) (holds : document.tree.inner? = some text)
    (answers : Answers (Utf8.encode text) number) : Answers document.bytes number

/-- A value whose similarity is a number is the value of a document that answers with it. -/
theorem answers_of_value? {document : Document} {value : Value} {number : Number}
    (similar : value.get? "similarity" = some (.number number))
    (h : document.tree.value? 0 = some value) : Answers document.bytes number := by
  refine Tree.wrapper_induction
    (motive := fun depth tree ↦ depth = 0 → ∀ document : Document, document.tree = tree →
      Answers document.bytes number) ?plain ?wrapper h rfl document rfl
  case plain =>
    rintro _ _ plain means rfl document rfl
    have member := get?_of_value? "similarity" plain means
    rw [similar] at member
    obtain ⟨tree, named, tree_eq⟩ := Option.bind_eq_some_iff.1 member.symm
    obtain ⟨entries, isObject, last⟩ := Option.bind_eq_some_iff.1 named
    exact .member (by rw [means]; rfl) plain isObject last tree_eq
  case wrapper =>
    rintro _ _ inner wraps holds answers - document rfl
    exact .inner wraps holds (answers rfl inner rfl)

/-- A response that answers has a value, whose similarity is the answer. -/
theorem Answers.exists_value {response : List UInt8} {number : Number}
    (answers : Answers response number) :
    ∃ value, Value.ofBytes response = .ok value ∧
      value.get? "similarity" = some (.number number) := by
  induction answers with
  | @member document entries member number readable plain isObject last means =>
    obtain ⟨value, value_eq⟩ := Option.isSome_iff_exists.1 readable
    refine ⟨value, Value.ofBytes_ok_iff_document.2 ⟨document, rfl, value_eq⟩, ?_⟩
    rw [get?_of_value? "similarity" plain value_eq, isObject, Option.bind_some, last,
      Option.bind_some, means]
  | @inner document text number wraps holds answers ih =>
    obtain ⟨value, read, similar⟩ := ih
    refine ⟨value, Value.ofBytes_ok_iff_document.2 ⟨document, rfl, ?_⟩, similar⟩
    rw [Tree.value?_of_isWrapper wraps, if_neg (by decide), holds, Option.bind_some, Value.ofText,
      read]
    rfl

/-- The similarity of exactly those responses that answer with a number is read. -/
theorem similarityOf_eq_ok_iff {response : List UInt8} {similarity : Float} :
    similarityOf response = .ok similarity ↔
      ∃ number, Answers response number ∧ similarity = number.toFloat := by
  constructor
  · intro h
    unfold similarityOf at h
    split at h
    · cases h
    · next value read =>
      obtain ⟨document, rfl, value_eq⟩ := Value.ofBytes_ok_iff_document.1 read
      split at h
      · next found float_eq =>
        obtain ⟨member, get_eq, number_eq⟩ := Option.bind_eq_some_iff.1 float_eq
        cases member with
        | number number =>
          refine ⟨number, answers_of_value? get_eq value_eq, ?_⟩
          rw [← Except.ok.inj h, ← Option.some.inj number_eq]
        | _ => cases number_eq
      · cases h
  · rintro ⟨number, answers, rfl⟩
    obtain ⟨value, read, similar⟩ := answers.exists_value
    rw [similarityOf, read]
    dsimp only
    rw [similar]
    rfl

/-- A wrapper answers with what the text in it answers with. -/
example : (similarityOf (Utf8.encode
    "\x7b\"$serde_json::private::RawValue\":\"\x7b\\\"similarity\\\":1\x7d\"\x7d")).toOption =
      some 1 := by
  decide +kernel

/-- A wrapper has no other members. -/
example : (similarityOf (Utf8.encode
    "\x7b\"$serde_json::private::RawValue\":\"1\",\"similarity\":1\x7d")).toOption = none := by
  decide +kernel

/-- Whatever a response answers with is the value of a number token. -/
theorem Answers.exists_token {response : List UInt8} {number : Number}
    (answers : Answers response number) : ∃ token : NumberToken, token.value? = some number := by
  induction answers with
  | member _ _ _ _ means => exact Tree.exists_token means
  | inner _ _ _ ih => exact ih

/-! ## Printed responses -/

/-- A response with a number token in the place of its similarity answers with the number. -/
theorem answers_of_token {token : NumberToken} {number : Number}
    (h : token.value? = some number) :
    Answers (Utf8.encode (String.ofList
      (Print.object .spaced [Print.member .spaced "similarity" token.text]))) number := by
  obtain ⟨key, spelled, decoded⟩ := Print.exists_literal "similarity"
  have text := Tree.text_single spelled (.number token)
  have ordinary : "similarity" ≠ Read.wrapperKey := by decide
  have bytes : Utf8.encode (String.ofList
      (Print.object .spaced [Print.member .spaced "similarity" token.text])) =
        (Document.bare (.single key (.number token))).bytes := by
    rw [Document.bytes_bare, text, Tree.text]
  have plain : ¬(Tree.single key (.number token)).IsWrapper :=
    fun wraps ↦ ordinary (Option.some.inj (decoded.symm.trans wraps))
  have named : lastNamed? "similarity" [(key, .number token)] = some (.number token) := by
    rw [lastNamed?_cons "similarity" decoded, if_pos rfl]
    rfl
  rw [bytes]
  refine .member ?_ plain rfl named (by rw [Tree.value?, h]; rfl)
  rw [Document.bare, Tree.value?_single decoded ordinary _ (by decide), Tree.value?, h]
  rfl

/-- A response with `null` in the place of its similarity has none. -/
theorem similarityOf_null :
    similarityOf (Utf8.encode "\x7b\"similarity\": null\x7d") =
      .error (.meaningless "response missing numeric 'similarity'") := by
  obtain ⟨key, spelled, decoded⟩ := Print.exists_literal "similarity"
  have bytes : Utf8.encode "\x7b\"similarity\": null\x7d" =
      (Document.bare (.single key .null)).bytes := by
    rw [Document.bytes_bare, Tree.text_single spelled]
    decide
  have value := Tree.value?_single decoded (show "similarity" ≠ Read.wrapperKey by decide) .null
    (show 0 < Read.depthLimit by decide)
  rw [similarityOf, Value.ofBytes_ok_iff_document.2 ⟨_, bytes, value⟩]
  rfl

end SpanScore.Response
