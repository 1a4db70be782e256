import SpanScore.Proofs.Toml.Multiline
import SpanScore.Proofs.Toml.Refill

/-!
# Values with other strings in them

Arrays and tables in braces are lists between brackets, so both are read alike from a text with
other strings in it, and so are values of any depth.
-/

namespace SpanScore.Toml.Reader

variable {α β : Type}

/-! ## Fuel that lasts -/

/-- Whether what is read with some fuel is also read with any fuel that lasts for the text. -/
def FuelLasts (result : Nat → Reader α) : Prop :=
  ∀ ⦃fuel fuel' : Nat⦄ ⦃cursor : Cursor⦄ ⦃found : α × Cursor⦄, result fuel cursor = some found →
    cursor.rest.length < fuel' → result fuel' cursor = some found

/-- Whether a reader leaves no more to read than there was. -/
def Shrinks (read : Reader α) : Prop :=
  ∀ ⦃cursor : Cursor⦄ ⦃value : α⦄ ⦃after : Cursor⦄, read cursor = some (value, after) →
    after.rest.length ≤ cursor.rest.length

theorem Follows.shrinks {read read' : Reader α} {same : α → α → Prop}
    (follows : Follows read read' same) : Shrinks read := by
  intro cursor value after ran
  obtain ⟨taken, passes, -⟩ := follows ran
  rw [passes.length_eq]
  exact Nat.le_add_left _ _

theorem FuelLasts.const (read : Reader α) : FuelLasts fun _ ↦ read :=
  fun _ _ _ _ ran _ ↦ ran

theorem FuelLasts.bind {first : Reader β} {next : Nat → β → Reader α} (shrinks : Shrinks first)
    (lasts : ∀ value, FuelLasts fun fuel ↦ next fuel value) :
    FuelLasts fun fuel ↦ first >>= next fuel := by
  intro fuel fuel' cursor found ran enough
  obtain ⟨value, middle, firstRan, ran⟩ := bind_eq_some_iff.1 ran
  exact bind_eq_some_iff.2 ⟨value, middle, firstRan,
    lasts value ran (Nat.lt_of_le_of_lt (shrinks firstRan) enough)⟩

theorem FuelLasts.map {result : Nat → Reader β} (lasts : FuelLasts result) (next : β → Reader α) :
    FuelLasts fun fuel ↦ result fuel >>= next := by
  intro fuel fuel' cursor found ran enough
  obtain ⟨value, middle, firstRan, ran⟩ := bind_eq_some_iff.1 ran
  exact bind_eq_some_iff.2 ⟨value, middle, lasts firstRan enough, ran⟩

/-- Readers with the fuel that lasts for their texts. -/
theorem FollowsRefilled.of_fuel {stop : List Char → Prop} {result result' : Nat → Reader α}
    {same : Filling → Region → α → α → Prop}
    (follows : ∀ fuel, FollowsRefilled stop (result fuel) (result' fuel) same)
    (lasts : FuelLasts result') :
    FollowsRefilled stop (rest >>= fun text ↦ result (text.length + 1))
      (rest >>= fun text ↦ result' (text.length + 1)) same := by
  intro cursor value after ran stops
  obtain ⟨segments, passes, again⟩ :=
    follows _ (show result (cursor.rest.length + 1) cursor = _ from ran) stops
  refine ⟨segments, passes, fun fills text refills rest offset alike ↦ ?_⟩
  obtain ⟨value', ran', isSame⟩ := again fills text refills rest offset alike
  exact ⟨value', lasts ran' (Nat.lt_succ_self _), isSame⟩

/-! ## Strings -/

/-- A string value gives way to the one that is put in its place. -/
theorem followsRefilled_string : FollowsRefilled NoQuote string string fun fills ↦ fills := by
  intro cursor text after ran noQuote
  obtain ⟨token, passes, rfl⟩ := string_sound ran noQuote
  refine ⟨[.string token], by simpa [Segment.text] using passes,
    fun fills text refills rest offset alike ↦ ?_⟩
  cases refills with
  | @string _ _ _ _ token' put quote_eq more =>
    cases more
    rw [List.append_nil]
    refine ⟨_, string_complete token' (alike.noQuote noQuote) offset, ?_⟩
    rwa [passes.offset_eq]

/-! ## Lists between brackets -/

/-- Takes what is behind an item of a list: the rest of the list behind a comma, or its end. -/
def behindItem (close : Char) (again : Reader (List α)) : Reader (List α) := do
  lines
  if ← takeIf [','] then again
  else
    exactly close
    return []

/-- Takes a list from behind its bracket on. -/
def listFrom (close : Char) (read : Reader α) : Nat → Reader (List α)
  | 0 => fail
  | fuel + 1 => do
    lines
    if ← takeIf [close] then return []
    let item ← read
    let more ← behindItem close (listFrom close read fuel)
    return item :: more

def behindKey (value : Reader Node) : Reader (Located Node) := do
  exactly '='
  blanks
  located value

def binding (value : Reader Node) : Reader ((List Key × Key) × Located Node) := do
  let keys ← path
  let node ← behindKey value
  return (keys, node)

theorem bind_fail (read : Reader α) : (read >>= fun _ ↦ (fail : Reader β)) = fail := by
  funext cursor
  change (read cursor).bind (fun _ ↦ none) = none
  exact Option.bind_fun_none _

theorem items_eq (value : Reader Node) (before : List (Located Node)) (fuel : Nat) :
    items value before fuel =
      listFrom ']' (located value) fuel >>= fun found ↦ pure (before ++ found) := by
  induction fuel generalizing before with
  | zero => rfl
  | succ fuel ih =>
    rw [items, listFrom, bind_assoc]
    refine bind_congr fun _ ↦ ?_
    rw [bind_assoc]
    refine bind_congr fun closes ↦ ?_
    cases closes with
    | true => simp
    | false =>
      simp only [Bool.false_eq_true, ↓reduceIte, bind_assoc, behindItem]
      refine bind_congr fun item ↦ bind_congr fun _ ↦ bind_congr fun comma ↦ ?_
      cases comma <;> simp [ih]

theorem items_nil_eq (value : Reader Node) (fuel : Nat) :
    items value [] fuel = listFrom ']' (located value) fuel := by
  rw [items_eq]
  exact bind_pure _

/-- Adds the values under some keys to a table. -/
def addBinding (table : Table) (found : (List Key × Key) × Located Node) : Option Table :=
  table.addAt found.1.1 found.1.2 found.2

theorem binding_bind (value : Reader Node) (behind : (List Key × Key) × Located Node → Reader α) :
    binding value >>= behind = (do
      let keys ← path
      exactly '='
      blanks
      let node ← located value
      behind (keys, node)) := by
  simp only [binding, behindKey, bind_assoc, pure_bind]

/-- The entries of a table in braces are a list, which is read to its end before the table is made
of it. -/
theorem entries_eq (value : Reader Node) (table : Table) (fuel : Nat) :
    entries value table fuel = listFrom '\x7d' (binding value) fuel >>= fun found ↦
      (found.foldlM addBinding table).elim fail pure := by
  induction fuel generalizing table with
  | zero => rfl
  | succ fuel ih =>
    rw [entries, listFrom, bind_assoc]
    refine bind_congr fun _ ↦ ?_
    rw [bind_assoc]
    refine bind_congr fun closes ↦ ?_
    cases closes with
    | true => simp
    | false =>
      simp only [Bool.false_eq_true, ↓reduceIte, bind_assoc, binding_bind, behindItem]
      refine bind_congr fun keys ↦ bind_congr fun _ ↦ bind_congr fun _ ↦ bind_congr fun node ↦ ?_
      cases added : table.addAt keys.1 keys.2 node with
      | none =>
        refine ((bind_congr fun _ ↦ (bind_congr fun comma ↦ ?_).trans (bind_fail _)).trans
          (bind_fail _)).symm
        cases comma <;> simp [List.foldlM_cons, addBinding, added, bind_fail]
      | some table =>
        refine bind_congr fun _ ↦ bind_congr fun comma ↦ ?_
        cases comma <;> simp [List.foldlM_cons, addBinding, added, ih]

theorem exactly_of_ne {char close : Char} (other : char ≠ close) (more : List Char)
    (offset : Nat) : exactly close ⟨char :: more, offset⟩ = none := by
  rw [exactly, bind_run (show next ⟨char :: more, offset⟩ = some (char, _) from rfl), if_pos other]
  rfl

/-- Where an item of a list has ended, no quote follows. -/
theorem noQuote_of_behindItem {close : Char} (plain : ¬IsQuote close) {again : Reader (List α)}
    {cursor : Cursor} {found : List α × Cursor}
    (ran : behindItem close again cursor = some found) : NoQuote cursor.rest := by
  rintro ⟨quote, more, rest_eq, isQuote⟩
  obtain ⟨rest, offset⟩ := cursor
  obtain rfl : rest = quote :: more := rest_eq
  have noComma : ¬[','] <+: quote :: more := by
    rintro ⟨_, written⟩
    obtain rfl : ',' = quote := (List.cons.inj written).1
    exact absurd isQuote (by decide)
  rw [behindItem, bind_run (lines_of_isQuote isQuote more offset),
    bind_run (takeIf_other noComma)] at ran
  simp only [Bool.false_eq_true, ↓reduceIte] at ran
  obtain ⟨_, _, closeRan, -⟩ := bind_eq_some_iff.1 ran
  have other : quote ≠ close := fun eq ↦ plain (eq ▸ isQuote)
  rw [exactly_of_ne other] at closeRan
  cases closeRan

theorem length_of_takeIf {text : List Char} {cursor after : Cursor} {found : Bool}
    (ran : takeIf text cursor = some (found, after)) :
    cursor.rest.length = (if found then text.length else 0) + after.rest.length := by
  obtain ⟨rfl, passes⟩ | ⟨rfl, rfl, -⟩ := takeIf_cases ran
  · exact passes.length_eq
  · exact (Nat.zero_add _).symm

theorem listFrom_lasts {read : Reader α} {close : Char} (plain : ¬IsQuote close)
    (shrinks : ∀ ⦃cursor value after⦄, read cursor = some (value, after) → NoQuote after.rest →
      after.rest.length ≤ cursor.rest.length) : FuelLasts (listFrom close read) := by
  intro fuel
  induction fuel with
  | zero => exact fun _ _ _ ran ↦ nomatch ran
  | succ fuel ih =>
    intro fuel' cursor found ran enough
    obtain ⟨fuel', rfl⟩ : ∃ less, fuel' = less + 1 := ⟨fuel' - 1, by omega⟩
    obtain ⟨_, _, linesRan, ran⟩ := bind_eq_some_iff.1 ran
    obtain ⟨closes, _, closesRan, ran⟩ := bind_eq_some_iff.1 ran
    refine bind_eq_some_iff.2 ⟨_, _, linesRan, bind_eq_some_iff.2 ⟨_, _, closesRan, ?_⟩⟩
    cases closes with
    | true => exact ran
    | false =>
      obtain ⟨item, _, itemRan, ran⟩ := bind_eq_some_iff.1 ran
      obtain ⟨more, _, moreRan, ran⟩ := bind_eq_some_iff.1 ran
      refine bind_eq_some_iff.2 ⟨_, _, itemRan, bind_eq_some_iff.2 ⟨_, _, ?_, ran⟩⟩
      have noQuote := noQuote_of_behindItem plain moreRan
      obtain ⟨_, _, linesRan', ran⟩ := bind_eq_some_iff.1 moreRan
      obtain ⟨comma, _, commaRan, ran⟩ := bind_eq_some_iff.1 ran
      refine bind_eq_some_iff.2 ⟨_, _, linesRan', bind_eq_some_iff.2 ⟨_, _, commaRan, ?_⟩⟩
      cases comma with
      | false => exact ran
      | true =>
        have start := follows_lines.shrinks linesRan
        have opening := length_of_takeIf closesRan
        have inside := shrinks itemRan noQuote
        have behind := follows_lines.shrinks linesRan'
        have strictly := length_of_takeIf commaRan
        simp only [↓reduceIte, List.length_singleton] at opening strictly
        exact ih ran (by omega)

theorem followsRefilled_listFrom {read read' : Reader α} {close : Char} (plain : ¬IsQuote close)
    {same : Filling → α → α → Prop} (stop : List Char → Prop)
    (follows : FollowsRefilled NoQuote read read' fun fills _ ↦ same fills) (fuel : Nat) :
    FollowsRefilled stop (listFrom close read fuel) (listFrom close read' fuel)
      fun fills _ ↦ List.Forall₂ (same fills) := by
  induction fuel with
  | zero => exact fun _ _ _ ran ↦ nomatch ran
  | succ fuel ih =>
    have empty : FollowsRefilled stop (pure []) (pure []) fun fills _ ↦
        List.Forall₂ (same fills) := .pure fun _ ↦ .nil
    refine .bind_eq follows_lines fun _ ↦ .bind_eq (follows_takeIf (by simpa using plain)) fun _ ↦
      .ite empty ?_
    have behind : FollowsRefilled stop (behindItem close (listFrom close read fuel))
        (behindItem close (listFrom close read' fuel)) fun fills _ ↦ List.Forall₂ (same fills) :=
      .bind_eq follows_lines fun _ ↦ .bind_eq (follows_takeIf (by simp [IsQuote])) fun _ ↦
        .ite ih (.bind_eq (follows_exactly close) fun _ ↦ empty)
    exact follows.seq List.cons List.cons behind (fun _ _ ran ↦ noQuote_of_behindItem plain ran)
      fun _ _ _ _ _ item more ↦ .cons item more

theorem followsRefilled_binding {value value' : Reader Node}
    (follows : FollowsRefilled NoQuote (located value) (located value') fun fills _ ↦
      Filled fills) :
    FollowsRefilled NoQuote (binding value) (binding value') fun fills _ found found' ↦
      SamePath found.1 found'.1 ∧ Filled fills found.2 found'.2 := by
  have keys : FollowsRefilled (fun _ ↦ True) path path fun _ _ ↦ SamePath := follows_path.refilled
  have node : FollowsRefilled NoQuote (behindKey value) (behindKey value') fun fills _ ↦
      Filled fills :=
    .bind_eq (follows_exactly '=') fun _ ↦ .bind_eq follows_blanks fun _ ↦ follows
  exact keys.seq Prod.mk Prod.mk node (fun _ _ _ ↦ trivial) fun _ _ _ _ _ same filled ↦
    ⟨same, filled⟩

theorem foldlM_addBinding_filled {fills : Filling}
    {found found' : List ((List Key × Key) × Located Node)}
    (all : List.Forall₂ (fun binding binding' ↦ SamePath binding.1 binding'.1 ∧
      Filled fills binding.2 binding'.2) found found') {table table' result : Table}
    (sameBut : table.SameBut fills table') (ran : found.foldlM addBinding table = some result) :
    ∃ result', found'.foldlM addBinding table' = some result' ∧ result.SameBut fills result' := by
  induction all generalizing table table' with
  | nil =>
    cases ran
    exact ⟨table', rfl, sameBut⟩
  | cons first _ ih =>
    rw [List.foldlM_cons] at ran
    obtain ⟨middle, addRan, ran⟩ := Option.bind_eq_some_iff.1 ran
    obtain ⟨middle', addRan', sameMiddle⟩ := Table.addAt_carries first.1 first.2 sameBut addRan
    obtain ⟨result', ran', sameResult⟩ := ih sameMiddle ran
    refine ⟨result', ?_, sameResult⟩
    rw [List.foldlM_cons]
    exact Option.bind_eq_some_iff.2 ⟨middle', addRan', ran'⟩

/-! ## Values -/

/-- Whether a value that stands at a region is the same as another one but for the strings. -/
def SameValue (fills : Filling) (region : Region) (node node' : Node) : Prop :=
  ∀ region', Filled fills ⟨region, node⟩ ⟨region', node'⟩

theorem followsRefilled_located {read read' : Reader Node}
    (follows : FollowsRefilled NoQuote read read' SameValue) :
    FollowsRefilled NoQuote (located read) (located read') fun fills _ ↦ Filled fills :=
  follows.located.mono fun _ _ _ found' same ↦ same found'.region

/-- Takes a value, whose arrays and tables hold values of a kind, with some fuel for them. -/
def valueOf (inner : Reader Node) (fuel : Nat) : Reader Node := do
  match ← peek with
  | some '"' | some '\'' => return .string (← string)
  | some '[' => do
    exactly '['
    return .array false (← items inner [] fuel)
  | some '\x7b' => do
    exactly '\x7b'
    return (← entries inner ⟨.braces, []⟩ fuel).node
  | _ => return .scalar (← scalarValue)

theorem valueWithin_succ (depth : Nat) :
    valueWithin (depth + 1) = rest >>= fun text ↦ valueOf (valueWithin depth) (text.length + 1) :=
  rfl

/-- What is read in a value of some depth, the same as another one but for the strings. -/
theorem followsRefilled_valueOf {inner : Reader Node}
    (follows : FollowsRefilled NoQuote inner inner SameValue) (fuel : Nat) :
    FollowsRefilled NoQuote (valueOf inner fuel) (valueOf inner fuel) SameValue := by
  have followsLocated := followsRefilled_located follows
  have array : FollowsRefilled NoQuote
      (items inner [] fuel >>= fun found ↦ pure (Node.array false found))
      (items inner [] fuel >>= fun found ↦ pure (Node.array false found))
      fun fills _ ↦ SameNode fills := by
    rw [items_nil_eq]
    exact (followsRefilled_listFrom (show ¬IsQuote ']' by decide) _ followsLocated fuel).map
      fun _ _ _ _ all _ _ ↦ .array false all
  have table : FollowsRefilled NoQuote
      (entries inner ⟨.braces, []⟩ fuel >>= fun found ↦ pure found.node)
      (entries inner ⟨.braces, []⟩ fuel >>= fun found ↦ pure found.node)
      fun fills _ ↦ SameNode fills := by
    have tables : FollowsRefilled NoQuote (entries inner ⟨.braces, []⟩ fuel)
        (entries inner ⟨.braces, []⟩ fuel) fun fills _ ↦ Table.SameBut fills := by
      have bindings := followsRefilled_binding followsLocated
      rw [entries_eq]
      have plain : ¬IsQuote '\x7d' := by decide
      refine (followsRefilled_listFrom plain _ bindings fuel).ofOption _ _
        fun fills _ _ _ _ all made ↦ foldlM_addBinding_filled all ?_ made
      exact ⟨rfl, .nil⟩
    exact tables.map fun _ _ _ _ same ↦ same.node
  refine .peek fun found ↦ ?_
  split
  · exact followsRefilled_string.map fun _ _ _ _ contents _ ↦ .string contents
  · exact followsRefilled_string.map fun _ _ _ _ contents _ ↦ .string contents
  · exact (FollowsRefilled.bind_eq (follows_exactly '[') fun _ ↦ array).mono
      fun _ region _ _ same ↦ same region
  · exact (FollowsRefilled.bind_eq (follows_exactly '\x7b') fun _ ↦ table).mono
      fun _ region _ _ same ↦ same region
  · exact follows_scalarValue.refilled.map fun _ _ value _ eq _ ↦ eq ▸ .scalar value

theorem valueOf_lasts {inner : Reader Node}
    (follows : FollowsRefilled NoQuote inner inner SameValue) : FuelLasts (valueOf inner) := by
  have followsLocated := followsRefilled_located follows
  refine .bind follows_peek.shrinks fun found ↦ ?_
  split
  · exact .const _
  · exact .const _
  · have lasts : FuelLasts (items inner []) := by
      rw [funext (items_nil_eq inner)]
      exact listFrom_lasts (by decide) followsLocated.shrinks
    exact .bind (follows_exactly '[').shrinks fun _ ↦ lasts.map _
  · have lasts : FuelLasts (entries inner ⟨.braces, []⟩) := by
      rw [funext (entries_eq inner ⟨.braces, []⟩)]
      exact .map (listFrom_lasts (by decide) (followsRefilled_binding followsLocated).shrinks) _
    exact .bind (follows_exactly '\x7b').shrinks fun _ ↦ lasts.map _
  · exact .const _

theorem followsRefilled_valueWithin (depth : Nat) :
    FollowsRefilled NoQuote (valueWithin depth) (valueWithin depth) SameValue := by
  induction depth with
  | zero =>
    refine .peek fun found ↦ ?_
    split
    · exact followsRefilled_string.map fun _ _ _ _ contents _ ↦ .string contents
    · exact followsRefilled_string.map fun _ _ _ _ contents _ ↦ .string contents
    · exact fun _ _ _ ran ↦ nomatch ran
    · exact fun _ _ _ ran ↦ nomatch ran
    · exact follows_scalarValue.refilled.map fun _ _ value _ eq _ ↦ eq ▸ .scalar value
  | succ depth ih =>
    rw [valueWithin_succ]
    exact .of_fuel (followsRefilled_valueOf ih) (valueOf_lasts ih)

end SpanScore.Toml.Reader
