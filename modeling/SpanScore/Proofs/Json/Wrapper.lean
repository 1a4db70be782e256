import SpanScore.Proofs.Json.Values

/-!
# Wrappers

A wrapper has the value of the text that it holds, which may be a wrapper again.  The text is
shorter than the wrapper, so what is shown of other trees is carried to wrappers by induction.
-/

namespace SpanScore.Json.Grammar

def Tree.IsWrapper : Tree → Prop
  | .object members => members.IsWrapper
  | _ => False

/-- The text that a wrapper holds. -/
def Tree.inner? : Tree → Option String
  | .object members => members.spelled?
  | _ => none

mutual

/-- The first key of each object in a tree. -/
def Tree.firstKeys : Tree → List Literal
  | .array items => items.firstKeys
  | .object members => members.firstKey :: members.firstKeys
  | _ => []

def Items.firstKeys : Items → List Literal
  | .one _ item _ => item.firstKeys
  | .more _ item _ rest => item.firstKeys ++ rest.firstKeys

def Members.firstKeys : Members → List Literal
  | .one _ _ value _ => value.firstKeys
  | .more _ _ value _ rest => value.firstKeys ++ rest.firstKeys

end

/-- Whether none of these first keys makes a wrapper. -/
def Unwrapped (firstKeys : List Literal) : Prop :=
  ∀ key ∈ firstKeys, key.decode? ≠ some Read.wrapperKey

theorem unwrapped_cons_iff {key : Literal} {keys : List Literal} :
    Unwrapped (key :: keys) ↔ key.decode? ≠ some Read.wrapperKey ∧ Unwrapped keys :=
  List.forall_mem_cons

theorem unwrapped_append_iff {keys keys' : List Literal} :
    Unwrapped (keys ++ keys') ↔ Unwrapped keys ∧ Unwrapped keys' :=
  List.forall_mem_append

/-- The values of members have no wrappers just when none of them has one. -/
theorem Members.unwrapped_iff (members : Members) :
    Unwrapped members.firstKeys ↔ ∀ entry ∈ members.entries, Unwrapped entry.2.firstKeys := by
  induction members using Members.entries.induct with
  | case1 key _ value _ => rw [firstKeys, entries, List.forall_mem_singleton]
  | case2 key _ value _ rest ih =>
    rw [firstKeys, entries, List.forall_mem_cons, unwrapped_append_iff, ih]

/-! ## Wrappers are longer than what they hold -/

theorem Piece.length_le_of_decode? {pieces : List Piece} {chars : List Char}
    (h : decode? pieces = some chars) : chars.length ≤ (texts pieces).length := by
  have step {rest : List Piece} {char : Char} {chars : List Char}
      (ih : ∀ {chars}, decode? rest = some chars → chars.length ≤ (texts rest).length)
      (h : (decode? rest).map (char :: ·) = some chars) :
      chars.length ≤ (texts rest).length + 1 := by
    obtain ⟨others, decoded, rfl⟩ := Option.map_eq_some_iff.1 h
    exact Nat.succ_le_succ (ih decoded)
  fun_induction decode? pieces generalizing chars with
  | case1 => simp_all
  | case2 char allowed rest ih =>
    have length := step ih h
    simp only [texts_cons, text, List.length_append, List.length_singleton]
    omega
  | case3 escape rest ih =>
    have length := step ih h
    simp only [texts_cons, text, List.length_append, List.length_cons]
    omega
  | case4 unit leading next rest trailing ih =>
    have length := step ih h
    simp only [texts_cons, text, List.length_append, List.length_cons]
    omega
  | case5 => simp at h
  | case6 => simp at h
  | case7 => simp at h
  | case8 unit rest notLeading notTrailing ih =>
    have length := step ih h
    simp only [texts_cons, text, List.length_append, List.length_cons]
    omega

theorem Literal.length_lt_of_decode? {literal : Literal} {text : String}
    (h : literal.decode? = some text) : text.toList.length < literal.body.length := by
  obtain ⟨chars, decoded, rfl⟩ := Option.map_eq_some_iff.1 h
  rw [String.toList_ofList, body, List.length_append]
  exact Nat.lt_succ_of_le (Piece.length_le_of_decode? decoded)

theorem Tree.length_lt_of_inner? {tree : Tree} {text : String} (h : tree.inner? = some text) :
    text.toList.length < tree.text.length := by
  cases tree with
  | object members =>
    cases members with
    | one key before value after =>
      cases value with
      | string literal =>
        have length := Literal.length_lt_of_decode? (show literal.decode? = some text from h)
        simp only [Tree.text, Members.text, List.length_cons, List.length_append]
        omega
      | _ => cases h
    | more key before value after rest => cases h
  | _ => cases h

/-! ## What a wrapper means -/

variable {tree : Tree} {depth : ℕ} {value : Value}

theorem Tree.value?_of_isWrapper (wraps : tree.IsWrapper) (depth : ℕ) :
    tree.value? depth = if Read.depthLimit ≤ depth then none
      else tree.inner?.bind fun text ↦ (Value.ofText text).toOption := by
  cases tree with
  | object members =>
    rw [Tree.value?, if_pos (show members.IsWrapper from wraps)]
    rfl
  | _ => exact wraps.elim

/-- A wrapper with a value holds a document with this value. -/
theorem Tree.exists_document_of_isWrapper (wraps : tree.IsWrapper)
    (h : tree.value? depth = some value) :
    ∃ document : Document, tree.inner? = some (String.ofList document.text) ∧
      document.tree.value? 0 = some value := by
  rw [Tree.value?_of_isWrapper wraps] at h
  split at h
  · cases h
  · obtain ⟨text, holds, read⟩ := Option.bind_eq_some_iff.1 h
    obtain ⟨document, bytes_eq, means⟩ :=
      Value.ofBytes_ok_iff_document.1 (eq_ok_of_toOption read)
    exact ⟨document, by rw [holds, Utf8.encode_injective bytes_eq], means⟩

/-- What holds of every tree that is no wrapper, and of every wrapper that holds a text of which it
holds, holds of all trees with a value. -/
theorem Tree.wrapper_induction {motive : ℕ → Tree → Prop}
    (plain : ∀ {depth tree}, ¬tree.IsWrapper → tree.value? depth = some value → motive depth tree)
    (wrapper : ∀ {depth tree} {document : Document}, tree.IsWrapper →
      tree.inner? = some (String.ofList document.text) → motive 0 document.tree →
      motive depth tree)
    {depth : ℕ} {tree : Tree} (h : tree.value? depth = some value) : motive depth tree := by
  by_cases wraps : tree.IsWrapper
  · obtain ⟨document, holds, means⟩ := Tree.exists_document_of_isWrapper wraps h
    have shorter : document.tree.text.length < tree.text.length := by
      have length := Tree.length_lt_of_inner? holds
      rw [String.toList_ofList, Document.text, List.length_append, List.length_append] at length
      omega
    exact wrapper wraps holds (Tree.wrapper_induction plain wrapper means)
  · exact plain wraps h
termination_by tree.text.length

/-- A number is the value of a token. -/
theorem Tree.exists_token {number : Number} (h : tree.value? depth = some (.number number)) :
    ∃ token : NumberToken, token.value? = some number := by
  refine Tree.wrapper_induction (motive := fun _ _ ↦ ∃ token : NumberToken, token.value? = some number)
    (fun {depth tree} plain h ↦ ?_) (fun _ _ found ↦ found) h
  cases tree with
  | number token => exact ⟨token, by simpa [Tree.value?] using h⟩
  | object members =>
    rw [Tree.value?, if_neg (show ¬members.IsWrapper from plain)] at h
    simp [-ite_eq_left_iff] at h
  | _ => simp [Tree.value?, -ite_eq_left_iff] at h

end SpanScore.Json.Grammar
