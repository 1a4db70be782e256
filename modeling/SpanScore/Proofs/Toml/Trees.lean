import SpanScore.Proofs.Toml.Words

/-!
# Trees that are the same but for their strings

Tables are put together from keys and nodes.  Which steps succeed and what they give is a matter of
keys and of how tables came about, not of the strings in them, so trees that are the same but for
their strings stay so.
-/

namespace SpanScore.Toml

/-- What a string at a region may be another one in the place of. -/
abbrev Filling := Region → String → String → Prop

/-- Whether a node is the same as another one but for its strings, each of which is related to the
one in its place by where it stands and what it is. -/
inductive Filled (fills : Filling) : Located Node → Located Node → Prop
  | string {region region' : Region} {text text' : String} (filled : fills region text text') :
    Filled fills ⟨region, .string text⟩ ⟨region', .string text'⟩
  | scalar {region region' : Region} (value : Scalar) :
    Filled fills ⟨region, .scalar value⟩ ⟨region', .scalar value⟩
  | array {region region' : Region} (ofTables : Bool) {items items' : List (Located Node)}
    (nodes : List.Forall₂ (Filled fills) items items') :
    Filled fills ⟨region, .array ofTables items⟩ ⟨region', .array ofTables items'⟩
  | table {region region' : Region} (origin : Origin) {entries entries' : List Entry}
    (keys : List.Forall₂ SameKey (entries.map Prod.fst) (entries'.map Prod.fst))
    (nodes : List.Forall₂ (Filled fills) (entries.map Prod.snd) (entries'.map Prod.snd)) :
    Filled fills ⟨region, .table origin entries⟩ ⟨region', .table origin entries'⟩

/-- Whether a node has a string at a region. -/
inductive HasString (region : Region) (text : String) : Located Node → Prop
  | here : HasString region text ⟨region, .string text⟩
  | item {around : Region} {ofTables : Bool} {items : List (Located Node)} {item : Located Node}
    (mem : item ∈ items) (inner : HasString region text item) :
    HasString region text ⟨around, .array ofTables items⟩
  | entry {around : Region} {origin : Origin} {entries : List Entry} {entry : Entry}
    (mem : entry ∈ entries) (inner : HasString region text entry.2) :
    HasString region text ⟨around, .table origin entries⟩

/-- The region of the string behind some positions in a node. -/
def stringAt? : List Nat → Located Node → Option Region
  | [], ⟨region, .string _⟩ => some region
  | position :: path, ⟨_, .array _ items⟩ => items[position]?.bind fun item ↦ stringAt? path item
  | position :: path, ⟨_, .table _ entries⟩ =>
    entries[position]?.bind fun entry ↦ stringAt? path entry.2
  | _, _ => none

theorem exists_hasString_of_stringAt? {path : List Nat} {node : Located Node} {region : Region}
    (found : stringAt? path node = some region) : ∃ text, HasString region text node := by
  fun_induction stringAt? path node with
  | case1 region text =>
    obtain rfl := Option.some.inj found
    exact ⟨text, .here⟩
  | case2 position path _ _ items ih =>
    obtain ⟨item, item_eq, found⟩ := Option.bind_eq_some_iff.1 found
    obtain ⟨text, has⟩ := ih item found
    exact ⟨text, .item (List.mem_of_getElem? item_eq) has⟩
  | case3 position path _ _ entries ih =>
    obtain ⟨entry, entry_eq, found⟩ := Option.bind_eq_some_iff.1 found
    obtain ⟨text, has⟩ := ih entry found
    exact ⟨text, .entry (List.mem_of_getElem? entry_eq) has⟩
  | case4 => cases found

section Filled

variable {fills : Filling}

/-- Whether entries have the same key, and nodes that are the same but for their strings. -/
def FilledEntry (fills : Filling) (entry entry' : Entry) : Prop :=
  SameKey entry.1 entry'.1 ∧ Filled fills entry.2 entry'.2

theorem forall₂_filledEntry_iff {entries entries' : List Entry} :
    List.Forall₂ (FilledEntry fills) entries entries' ↔
      List.Forall₂ SameKey (entries.map Prod.fst) (entries'.map Prod.fst) ∧
        List.Forall₂ (Filled fills) (entries.map Prod.snd) (entries'.map Prod.snd) := by
  rw [List.forall₂_map_left_iff, List.forall₂_map_right_iff, List.forall₂_map_left_iff,
    List.forall₂_map_right_iff]
  constructor
  · exact fun h ↦ ⟨h.imp fun _ _ ↦ And.left, h.imp fun _ _ ↦ And.right⟩
  · rintro ⟨keys, nodes⟩
    induction keys with
    | nil => cases nodes; exact .nil
    | cons key _ ih =>
      cases nodes with
      | cons node nodes => exact .cons ⟨key, node⟩ (ih nodes)

/-- Whether nodes are the same but for their strings, wherever they stand. -/
def SameNode (fills : Filling) (node node' : Node) : Prop :=
  ∀ region region', Filled fills ⟨region, node⟩ ⟨region', node'⟩

theorem exists_of_forall₂ {α β : Type} {related : α → β → Prop} {items : List α}
    {items' : List β} (all : List.Forall₂ related items items') {item : α} (mem : item ∈ items) :
    ∃ item', related item item' := by
  induction all with
  | nil => cases mem
  | cons first _ ih =>
    obtain rfl | mem := List.mem_cons.1 mem
    · exact ⟨_, first⟩
    · exact ih mem

/-- Every string of a node has one in its place. -/
theorem Filled.hasString {node node' : Located Node} (filled : Filled fills node node')
    {region : Region} {text : String} (has : HasString region text node) :
    ∃ text', fills region text text' := by
  induction has generalizing node' with
  | here =>
    cases filled with
    | string filled => exact ⟨_, filled⟩
  | item mem _ ih =>
    cases filled with
    | array _ nodes =>
      obtain ⟨item', filled⟩ := exists_of_forall₂ nodes mem
      exact ih filled
  | entry mem _ ih =>
    cases filled with
    | table _ _ nodes =>
      obtain ⟨node', filled⟩ := exists_of_forall₂ nodes (List.mem_map_of_mem mem)
      exact ih filled

/-! ## Tables -/

namespace Table

def SameBut (fills : Filling) (table table' : Table) : Prop :=
  table.origin = table'.origin ∧ List.Forall₂ (FilledEntry fills) table.entries table'.entries

theorem SameBut.node {table table' : Table} (same : SameBut fills table table') :
    SameNode fills table.node table'.node := by
  obtain ⟨origin, entries⟩ := table
  obtain ⟨_, entries'⟩ := table'
  obtain ⟨rfl, filled⟩ := same
  obtain ⟨keys, nodes⟩ := forall₂_filledEntry_iff.1 filled
  exact fun _ _ ↦ .table origin keys nodes

/-- Whether a change to a table is possible for tables that are the same but for strings, and gives
such tables again. -/
def Carries (fills : Filling) (change change' : Table → Option Table) : Prop :=
  ∀ ⦃table table' result⦄, SameBut fills table table' → change table = some result →
    ∃ result', change' table' = some result' ∧ SameBut fills result result'

variable {entries entries' : List Entry} {key key' : Key} {node node' : Located Node}

theorem find?_filled (name : String) (filled : List.Forall₂ (FilledEntry fills) entries entries') :
    Option.Rel (Filled fills) (find? name entries) (find? name entries') := by
  induction filled with
  | nil => exact .none
  | @cons entry entry' rest rest' first _ ih =>
    rw [find?, find?, List.find?_cons, List.find?_cons, ← show entry.1.value = entry'.1.value from
      first.1]
    split
    · exact .some first.2
    · exact ih

theorem insert_filled (sameKey : SameKey key key') (filledNode : Filled fills node node')
    (filled : List.Forall₂ (FilledEntry fills) entries entries') :
    List.Forall₂ (FilledEntry fills) (insert key node entries) (insert key' node' entries') := by
  induction filled with
  | nil => exact .cons ⟨sameKey, filledNode⟩ .nil
  | @cons entry entry' rest rest' first more ih =>
    have keyEq : key.value = key'.value := sameKey
    have firstEq : entry.1.value = entry'.1.value := first.1
    rw [insert, insert, keyEq, firstEq]
    split
    · exact .cons ⟨sameKey, filledNode⟩ (.cons first more)
    · split
      · exact .cons ⟨first.1, filledNode⟩ more
      · exact .cons first ih

theorem add_carries (dotted : Bool) (sameKey : SameKey key key')
    (filledNode : Filled fills node node') :
    Carries fills (add dotted key node) (add dotted key' node') := by
  rintro ⟨origin, entries⟩ ⟨_, entries'⟩ result ⟨rfl, filled⟩ ran
  have found := find?_filled key.value filled
  have inserted := insert_filled sameKey filledNode filled
  rw [add] at ran ⊢
  rw [← show key.value = key'.value from sameKey]
  dsimp only at ran found ⊢
  generalize find? key.value entries = old at ran found
  generalize find? key.value entries' = old' at found
  split at ran
  · cases ran
  · next valid =>
    rw [if_neg valid]
    cases found with
    | some => cases ran
    | none =>
      cases ran
      exact ⟨_, rfl, rfl, inserted⟩

theorem openTable_carries (region region' : Region) (sameKey : SameKey key key') :
    Carries fills (openTable region key) (openTable region' key') := by
  rintro ⟨origin, entries⟩ ⟨_, entries'⟩ result ⟨rfl, filled⟩ ran
  have found := find?_filled key.value filled
  rw [openTable] at ran ⊢
  rw [← show key.value = key'.value from sameKey]
  dsimp only at ran found ⊢
  generalize find? key.value entries = old at ran found
  generalize find? key.value entries' = old' at found
  cases found with
  | none =>
    cases ran
    exact ⟨_, rfl, rfl, insert_filled sameKey (.table .header .nil .nil) filled⟩
  | some filledOld =>
    cases filledOld with
    | string => cases ran
    | scalar => cases ran
    | array => cases ran
    | table inner keys nodes =>
      cases inner with
      | path =>
        cases ran
        exact ⟨_, rfl, rfl, insert_filled sameKey (.table .header keys nodes) filled⟩
      | header => cases ran
      | dotted => cases ran
      | braces => cases ran

theorem openItem_carries (region region' : Region) (sameKey : SameKey key key') :
    Carries fills (openItem region key) (openItem region' key') := by
  rintro ⟨origin, entries⟩ ⟨_, entries'⟩ result ⟨rfl, filled⟩ ran
  have found := find?_filled key.value filled
  have item : Filled fills ⟨region, .table .header []⟩ ⟨region', .table .header []⟩ :=
    .table .header .nil .nil
  rw [openItem] at ran ⊢
  rw [← show key.value = key'.value from sameKey]
  dsimp only at ran found ⊢
  generalize find? key.value entries = old at ran found
  generalize find? key.value entries' = old' at found
  cases found with
  | none =>
    cases ran
    exact ⟨_, rfl, rfl, insert_filled sameKey (.array true (.cons item .nil)) filled⟩
  | some filledOld =>
    cases filledOld with
    | string => cases ran
    | scalar => cases ran
    | table => cases ran
    | array ofTables nodes =>
      cases ofTables with
      | false => cases ran
      | true =>
        cases ran
        exact ⟨_, rfl, rfl, insert_filled sameKey
          (.array true (List.rel_append nodes (.cons item .nil))) filled⟩

theorem forall₂_concat_cases {α β : Type} {related : α → β → Prop} {items : List α}
    {items' : List β} (all : List.Forall₂ related items items') :
    items = [] ∧ items' = [] ∨ ∃ front last front' last', items = front ++ [last] ∧
      items' = front' ++ [last'] ∧ List.Forall₂ related front front' ∧ related last last' := by
  have reversed := List.forall₂_reverse_iff.2 all
  generalize items_eq : items.reverse = back at reversed
  generalize items'_eq : items'.reverse = back' at reversed
  rw [List.reverse_eq_iff] at items_eq items'_eq
  subst items_eq items'_eq
  cases reversed with
  | nil => exact .inl ⟨rfl, rfl⟩
  | @cons last last' back back' first more =>
    exact .inr ⟨_, _, _, _, List.reverse_cons, List.reverse_cons,
      List.forall₂_reverse_iff.2 more, first⟩

/-- Changes the node under a key, `inner` being what becomes of the table that it is or opens. -/
def alterNode (dotted : Bool) (inner : Origin → List Entry → Option Node) :
    Option Node → Option Node
  | none => inner (if dotted then .dotted else .path) []
  | some (.table origin entries) =>
    if origin = .braces || (dotted && origin = .header) then none else inner origin entries
  | some (.array true items) =>
    match items.getLast? with
    | some ⟨region, .table origin entries⟩ =>
      if dotted then none
      else (inner origin entries).map fun node ↦ .array true (items.dropLast ++ [⟨region, node⟩])
    | _ => none
  | some _ => none

theorem alter_cons (dotted : Bool) (change : Table → Option Table) (key : Key) (path : List Key)
    (table : Table) :
    alter dotted change (key :: path) table =
      (alterNode dotted
        (fun origin entries ↦ (alter dotted change path ⟨origin, entries⟩).map Table.node)
        ((find? key.value table.entries).map Located.value)).map fun node ↦
          ⟨table.origin, insert key
            ⟨((find? key.value table.entries).map Located.region).getD key.region, node⟩
            table.entries⟩ := by
  rw [alter]
  dsimp only
  generalize (find? key.value table.entries).map Located.value = old
  cases old with
  | none => exact Option.map_eq_bind.symm
  | some old =>
    cases old with
    | string => rfl
    | scalar => rfl
    | table =>
      simp only [alterNode]
      split
      · rfl
      · exact Option.map_eq_bind.symm
    | array ofTables items =>
      cases ofTables with
      | false => rfl
      | true =>
        simp only [alterNode]
        cases items.getLast? with
        | none => rfl
        | some last =>
          obtain ⟨region, last⟩ := last
          cases last with
          | table =>
            dsimp only
            split
            · rfl
            · exact Option.map_eq_bind.symm
          | _ => rfl

theorem alterNode_carries {dotted : Bool} {inner inner' : Origin → List Entry → Option Node}
    (carries : ∀ ⦃origin entries entries' changed⦄,
      List.Forall₂ (FilledEntry fills) entries entries' → inner origin entries = some changed →
      ∃ changed', inner' origin entries' = some changed' ∧ SameNode fills changed changed')
    {old old' : Option (Located Node)} (found : Option.Rel (Filled fills) old old')
    {changed : Node} (ran : alterNode dotted inner (old.map Located.value) = some changed) :
    ∃ changed', alterNode dotted inner' (old'.map Located.value) = some changed' ∧
      SameNode fills changed changed' := by
  cases found with
  | none => exact carries .nil ran
  | some filledOld =>
    cases filledOld with
    | string => cases ran
    | scalar => cases ran
    | table origin keys nodes =>
      simp only [Option.map_some, alterNode] at ran ⊢
      split at ran
      · cases ran
      · next allowed =>
        rw [if_neg allowed]
        exact carries (forall₂_filledEntry_iff.2 ⟨keys, nodes⟩) ran
    | array ofTables nodes =>
      cases ofTables with
      | false => cases ran
      | true =>
        simp only [Option.map_some, alterNode] at ran ⊢
        obtain ⟨rfl, rfl⟩ | ⟨front, last, front', last', rfl, rfl, fronts, lasts⟩ :=
          forall₂_concat_cases nodes
        · cases ran
        · rw [List.getLast?_concat, List.dropLast_concat] at ran
          rw [List.getLast?_concat, List.dropLast_concat]
          cases lasts with
          | string => cases ran
          | scalar => cases ran
          | array => cases ran
          | table origin lastKeys lastNodes =>
            dsimp only at ran ⊢
            split at ran
            · cases ran
            · next allowed =>
              rw [if_neg allowed]
              obtain ⟨table, tableRan, rfl⟩ := Option.map_eq_some_iff.1 ran
              obtain ⟨table', tableRan', same⟩ :=
                carries (forall₂_filledEntry_iff.2 ⟨lastKeys, lastNodes⟩) tableRan
              exact ⟨_, Option.map_eq_some_iff.2 ⟨table', tableRan', rfl⟩, fun _ _ ↦
                .array true (List.rel_append fronts (.cons (same _ _) .nil))⟩

theorem alter_carries (dotted : Bool) {change change' : Table → Option Table}
    (carries : Carries fills change change') {path path' : List Key}
    (same : List.Forall₂ SameKey path path') :
    Carries fills (alter dotted change path) (alter dotted change' path') := by
  induction same with
  | nil => exact carries
  | @cons key key' path path' sameKey _ ih =>
    have inner ⦃origin : Origin⦄ ⦃entries entries' : List Entry⦄ ⦃changed : Node⦄
        (filled : List.Forall₂ (FilledEntry fills) entries entries')
        (ran : (alter dotted change path ⟨origin, entries⟩).map Table.node = some changed) :
        ∃ changed', (alter dotted change' path' ⟨origin, entries'⟩).map Table.node = some changed' ∧
          SameNode fills changed changed' := by
      obtain ⟨table, tableRan, rfl⟩ := Option.map_eq_some_iff.1 ran
      have start : SameBut fills ⟨origin, entries⟩ ⟨origin, entries'⟩ := ⟨rfl, filled⟩
      obtain ⟨table', tableRan', same⟩ := ih start tableRan
      exact ⟨_, Option.map_eq_some_iff.2 ⟨table', tableRan', rfl⟩, same.node⟩
    rintro ⟨origin, entries⟩ ⟨_, entries'⟩ result ⟨rfl, filled⟩ ran
    rw [alter_cons] at ran ⊢
    obtain ⟨changed, nodeRan, rfl⟩ := Option.map_eq_some_iff.1 ran
    have found := find?_filled key.value filled
    rw [show key.value = key'.value from sameKey] at found nodeRan
    obtain ⟨changed', nodeRan', sameNode⟩ := alterNode_carries inner found nodeRan
    exact ⟨_, Option.map_eq_some_iff.2 ⟨changed', nodeRan', rfl⟩, rfl,
      insert_filled sameKey (sameNode _ _) filled⟩

theorem addAt_carries {path path' : List Key × Key} (same : SamePath path path')
    (filledNode : Filled fills node node') :
    Carries fills (addAt path.1 path.2 node) (addAt path'.1 path'.2 node') := by
  have empty_eq : path.1.isEmpty = path'.1.isEmpty := by
    rw [Bool.eq_iff_iff, List.isEmpty_iff_length_eq_zero, List.isEmpty_iff_length_eq_zero,
      same.1.length_eq]
  intro table table' result sameBut ran
  rw [addAt] at ran ⊢
  rw [← empty_eq]
  exact alter_carries _ (add_carries _ same.2 filledNode) same.1 sameBut ran

end Table

/-! ## Documents -/

/-- Whether lines are the same but for the strings in them. -/
inductive FilledLine (fills : Filling) : Line → Line → Prop
  | header {line line' : Line} (same : SameHeader line line') : FilledLine fills line line'
  | entry {path path' : List Key × Key} {node node' : Located Node} (same : SamePath path path')
    (filled : Filled fills node node') :
    FilledLine fills (.entry path.1 path.2 node) (.entry path'.1 path'.2 node')

def FilledDraft (fills : Filling) (draft draft' : Draft) : Prop :=
  Table.SameBut fills draft.root draft'.root ∧ List.Forall₂ SameKey draft.current draft'.current

theorem Draft.add_filled {draft draft' result : Draft} {line line' : Line}
    (filledDraft : FilledDraft fills draft draft') (filledLine : FilledLine fills line line')
    (ran : draft.add line = some result) :
    ∃ result', draft'.add line' = some result' ∧ FilledDraft fills result result' := by
  obtain ⟨root, current⟩ := filledDraft
  cases filledLine with
  | header same =>
    cases same with
    | table same =>
      obtain ⟨table, tableRan, ran⟩ := Option.bind_eq_some_iff.1 ran
      cases ran
      obtain ⟨table', tableRan', sameTable⟩ :=
        Table.alter_carries false (Table.openTable_carries _ _ same.2) same.1 root tableRan
      exact ⟨_, Option.bind_eq_some_iff.2 ⟨table', tableRan', rfl⟩, sameTable,
        List.rel_append same.1 (.cons same.2 .nil)⟩
    | item same =>
      obtain ⟨table, tableRan, ran⟩ := Option.bind_eq_some_iff.1 ran
      cases ran
      obtain ⟨table', tableRan', sameTable⟩ :=
        Table.alter_carries false (Table.openItem_carries _ _ same.2) same.1 root tableRan
      exact ⟨_, Option.bind_eq_some_iff.2 ⟨table', tableRan', rfl⟩, sameTable,
        List.rel_append same.1 (.cons same.2 .nil)⟩
  | entry same filled =>
    obtain ⟨table, tableRan, ran⟩ := Option.bind_eq_some_iff.1 ran
    cases ran
    obtain ⟨table', tableRan', sameTable⟩ :=
      Table.alter_carries false (Table.addAt_carries same filled) current root tableRan
    exact ⟨_, Option.bind_eq_some_iff.2 ⟨table', tableRan', rfl⟩, sameTable, current⟩

/-- Documents with lines that are the same but for strings are the same but for strings. -/
theorem foldlM_add_filled {lines lines' : List Line}
    (filledLines : List.Forall₂ (FilledLine fills) lines lines') {draft draft' result : Draft}
    (filledDraft : FilledDraft fills draft draft')
    (ran : lines.foldlM Draft.add draft = some result) :
    ∃ result', lines'.foldlM Draft.add draft' = some result' ∧
      FilledDraft fills result result' := by
  induction filledLines generalizing draft draft' with
  | nil =>
    cases ran
    exact ⟨draft', rfl, filledDraft⟩
  | cons filledLine _ ih =>
    rw [List.foldlM_cons] at ran
    obtain ⟨middle, addRan, ran⟩ := Option.bind_eq_some_iff.1 ran
    obtain ⟨middle', addRan', filledMiddle⟩ := Draft.add_filled filledDraft filledLine addRan
    obtain ⟨result', ran', filledResult⟩ := ih filledMiddle ran
    refine ⟨result', ?_, filledResult⟩
    rw [List.foldlM_cons]
    exact Option.bind_eq_some_iff.2 ⟨middle', addRan', ran'⟩

end Filled

end SpanScore.Toml
