import Mathlib.Data.List.Induction
import Mathlib.Data.List.TakeWhile
import SpanScore.CommandLine.Parse
import SpanScore.Proofs.Failure

/-!
# Flags in any place

A flag can be mentioned by its name or by its letter, and its value can be the next argument or a
part of the same one.  However the flags of a command line are written, reading the arguments uses
the flags one after the other.  Main statement: whatever the arguments of a scorer program look
like and whichever other flags stand between them, they are taken as they are and in their order.
-/

namespace SpanScore

namespace CommandLine

/-! ## Uses of flags -/

/-- What a flag is used for. -/
inductive Use where
  /-- To give a value. -/
  | store (flag : Flag) (value : String)
  /-- To say something by itself. -/
  | raise (flag : Flag)
deriving DecidableEq

namespace Use

def flag : Use → Flag
  | store flag _ => flag
  | raise flag => flag

def apply (line : CommandLine) : Use → Except UsageError CommandLine
  | store flag value => line.store flag value
  | raise flag => line.raise flag

end Use

/-! ## Ways to write them -/

/-- How an argument mentions a flag: by its name, or by its letter behind the letters of others. -/
inductive Mention where
  | named (flag : Flag)
  | lettered (others : List Flag) (flag : Flag)

namespace Mention

/-- The flag that is mentioned last. -/
def flag : Mention → Flag
  | named flag => flag
  | lettered _ flag => flag

/-- The flags that are mentioned before it. -/
def others : Mention → List Flag
  | named _ => []
  | lettered others _ => others

def text : Mention → List Char
  | named flag => '-' :: '-' :: flag.name.toList
  | lettered others flag => '-' :: (others ++ [flag]).filterMap Flag.letter?

/-- Whether flags can be mentioned in this way: those with a letter have one, and those that others
follow take no value. -/
def IsProper : Mention → Prop
  | named _ => True
  | lettered others flag =>
    flag.letter?.isSome ∧ ∀ other ∈ others, other.letter?.isSome ∧ other.takesValue = false

instance : DecidablePred IsProper
  | named _ => inferInstanceAs (Decidable True)
  | lettered _ _ => inferInstanceAs (Decidable (_ ∧ ∀ _ ∈ _, _))

end Mention

/-- A flag with what belongs to it, as a part of a command line. -/
inductive Item where
  /-- A flag without a value. -/
  | alone (mention : Mention)
  /-- The value is an argument of its own. -/
  | apart (mention : Mention) (value : String)
  /-- The value stands behind an equals sign. -/
  | equated (mention : Mention) (value : String)
  /-- The value stands right behind a letter. -/
  | joined (others : List Flag) (flag : Flag) (value : String)

/-- Whether an argument does not look like a flag; a dash alone does not. -/
def LooksPlain (argument : String) : Prop :=
  argument.toList.head? = some '-' → argument.toList.tail = []

instance : DecidablePred LooksPlain := fun _ ↦ inferInstanceAs (Decidable (_ → _))

namespace Item

def arguments : Item → List String
  | alone mention => [String.ofList mention.text]
  | apart mention value => [String.ofList mention.text, value]
  | equated mention value => [String.ofList (mention.text ++ '=' :: value.toList)]
  | joined others flag value =>
    [String.ofList ((Mention.lettered others flag).text ++ value.toList)]

def uses : Item → List Use
  | alone mention => mention.others.map .raise ++ [.raise mention.flag]
  | apart mention value => mention.others.map .raise ++ [.store mention.flag value]
  | equated mention value => mention.others.map .raise ++ [.store mention.flag value]
  | joined others flag value => others.map .raise ++ [.store flag value]

/-- Whether an item can be written in its way.  A value that is an argument of its own must not look
like a flag, unless it is an argument of the scorer program. -/
def IsProper : Item → Prop
  | alone mention => mention.IsProper ∧ mention.flag.takesValue = false
  | apart mention value => mention.IsProper ∧ mention.flag.takesValue = true ∧
    (mention.flag ≠ .scorerArg → LooksPlain value)
  | equated mention _ => mention.IsProper ∧ mention.flag.takesValue = true
  | joined others flag value => (Mention.lettered others flag).IsProper ∧
    flag.takesValue = true ∧ value.toList.head? ≠ none ∧ value.toList.head? ≠ some '='

instance : DecidablePred IsProper
  | alone _ => inferInstanceAs (Decidable (_ ∧ _))
  | apart _ _ => inferInstanceAs (Decidable (_ ∧ _ ∧ (_ → _)))
  | equated _ _ => inferInstanceAs (Decidable (_ ∧ _))
  | joined _ _ _ => inferInstanceAs (Decidable (_ ∧ _ ∧ _ ∧ _))

end Item

/-! ## Reading one mention -/

theorem named?_name (flag : Flag) : Flag.named? flag.name = some flag := by
  cases flag <;> decide

theorem equals_notMem_name (flag : Flag) : '=' ∉ flag.name.toList := by
  cases flag <;> decide

theorem name_ne_nil (flag : Flag) : flag.name.toList ≠ [] := by
  cases flag <;> decide

theorem lettered?_letter {flag : Flag} {letter : Char} (h : flag.letter? = some letter) :
    Flag.lettered? letter = some flag := by
  cases flag <;> cases h <;> decide

theorem letter_ne_dash {flag : Flag} {letter : Char} (h : flag.letter? = some letter) :
    letter ≠ '-' := by
  cases flag <;> cases h <;> decide

namespace Draft

/-- Whether a draft does not wait for a value. -/
def IsReady (draft : Draft) : Prop :=
  ∀ flag, draft.pending ≠ .awaiting flag

/-- Reads arguments up to their end. -/
def run (draft : Draft) (arguments : List String) : Except UsageError CommandLine := do
  (← draft.arguments arguments).settle

variable {draft : Draft} {flag : Flag}

theorem isReady_nothing (line : CommandLine) : IsReady ⟨line, .nothing⟩ := nofun

theorem isReady_given (line : CommandLine) (flag : Flag) (value : String) :
    IsReady ⟨line, .given flag value⟩ := nofun

theorem settle_nothing (line : CommandLine) : settle ⟨line, .nothing⟩ = .ok line := rfl

theorem argument_long (ready : draft.IsReady) (text : List Char) :
    draft.argument (String.ofList ('-' :: '-' :: text)) = draft.long text := by
  rw [argument, String.toList_ofList]
  split <;> grind [IsReady]

theorem argument_short (ready : draft.IsReady) {letter : Char} (other : letter ≠ '-')
    (rest : List Char) :
    draft.argument (String.ofList ('-' :: letter :: rest)) = draft.short (letter :: rest) := by
  rw [argument, String.toList_ofList]
  split <;> simp_all [IsReady]

/-- A value that does not look like a flag is taken by any flag, and one that does by the flag for
arguments of the scorer program. -/
theorem argument_value (line : CommandLine) {value : String}
    (plain : flag ≠ .scorerArg → LooksPlain value) :
    argument ⟨line, .awaiting flag⟩ value = .ok ⟨line, .given flag value⟩ := by
  rw [argument]
  split <;> simp_all [LooksPlain]

theorem isEnd_eq_false {argument : String} (other : argument ≠ "--") :
    draft.isEnd argument = false := by
  rw [isEnd, beq_eq_false_iff_ne.2 other, Bool.false_and]

theorem isEnd_value (line : CommandLine) {value : String}
    (plain : flag ≠ .scorerArg → LooksPlain value) :
    isEnd ⟨line, .awaiting flag⟩ value = false := by
  by_cases scorerArg : flag = .scorerArg
  · simp [isEnd, scorerArg]
  · apply isEnd_eq_false
    rintro rfl
    exact absurd (plain scorerArg) (by decide)

/-! ### Mentions -/

theorem long_name (draft : Draft) (flag : Flag) :
    draft.long flag.name.toList = draft.start flag := by
  have plain : ∀ char ∈ flag.name.toList, decide (char ≠ '=') = true :=
    fun char mem ↦ decide_eq_true (ne_of_mem_of_not_mem mem (equals_notMem_name flag))
  rw [long, List.takeWhile_eq_self_iff.2 plain, List.dropWhile_eq_nil_iff.2 plain,
    String.ofList_toList, named?_name]

theorem long_equated (draft : Draft) (takes : flag.takesValue = true) (value : List Char) :
    draft.long (flag.name.toList ++ '=' :: value) = draft.finish flag (String.ofList value) := by
  have plain : ∀ char ∈ flag.name.toList, decide (char ≠ '=') = true :=
    fun char mem ↦ decide_eq_true (ne_of_mem_of_not_mem mem (equals_notMem_name flag))
  rw [long, List.takeWhile_append_of_pos plain, List.dropWhile_append_of_pos plain]
  simp [named?_name, takes]

/-- A flag is started when the value before it has been stored. -/
theorem start_eq (draft : Draft) (flag : Flag) :
    draft.start flag = draft.settle >>= fun line ↦ start ⟨line, .nothing⟩ flag := rfl

theorem finish_eq (draft : Draft) (flag : Flag) (value : String) :
    draft.finish flag value =
      draft.settle >>= fun line ↦ finish ⟨line, .nothing⟩ flag value := rfl

theorem finish_nothing (line : CommandLine) (flag : Flag) (value : String) :
    finish ⟨line, .nothing⟩ flag value =
      line.store flag value >>= fun line ↦ pure ⟨line, .nothing⟩ := rfl

theorem start_of_takesValue (line : CommandLine) (takes : flag.takesValue = true) :
    start ⟨line, .nothing⟩ flag = .ok ⟨line, .awaiting flag⟩ := by
  rw [start, settle_nothing]
  simp [takes, bind, Except.bind, pure, Except.pure]

theorem start_of_not_takesValue (line : CommandLine) (takes : flag.takesValue = false) :
    start ⟨line, .nothing⟩ flag = line.raise flag >>= fun line ↦ pure ⟨line, .nothing⟩ := by
  rw [start, settle_nothing]
  simp [takes, bind, Except.bind, pure, Except.pure]

theorem short_switch {other : Flag} {letter : Char} (lettered : other.letter? = some letter)
    (takes : other.takesValue = false) (rest : List Char) :
    draft.short (letter :: rest) = draft.start other >>= fun draft ↦ draft.short rest := by
  simp [short, lettered?_letter lettered, takes]

/-- A letter is read when the value before it has been stored. -/
theorem short_eq (draft : Draft) {letter : Char} (lettered : flag.letter? = some letter)
    (rest : List Char) :
    draft.short (letter :: rest) =
      draft.settle >>= fun line ↦ short ⟨line, .nothing⟩ (letter :: rest) := by
  cases takes : flag.takesValue with
  | false => simp only [short_switch lettered takes, start_eq draft, bind_assoc]
  | true =>
    simp only [short, lettered?_letter lettered, takes, if_true]
    split
    · exact start_eq draft flag
    · exact finish_eq draft flag _
    · exact finish_eq draft flag _

/-- The letters of flags without values, and what is read behind them. -/
theorem short_letters {others : List Flag}
    (proper : ∀ other ∈ others, other.letter?.isSome ∧ other.takesValue = false)
    {letter : Char} (lettered : flag.letter? = some letter) (rest : List Char) :
    draft.short (others.filterMap Flag.letter? ++ letter :: rest) =
      draft.settle >>= fun line ↦ (others.map Use.raise).foldlM Use.apply line >>= fun line ↦
        short ⟨line, .nothing⟩ (letter :: rest) := by
  induction others generalizing draft with
  | nil => exact short_eq draft lettered rest
  | cons other others ih =>
    obtain ⟨⟨has, takes⟩, proper⟩ := List.forall_mem_cons.1 proper
    obtain ⟨first, firstLettered⟩ := Option.isSome_iff_exists.1 has
    rw [List.filterMap_cons_some firstLettered, List.cons_append, short_eq draft firstLettered]
    congr
    funext line
    rw [short_switch firstLettered takes, start_of_not_takesValue line takes, bind_assoc,
      List.map_cons, List.foldlM_cons, bind_assoc]
    congr
    funext line
    rw [pure_bind, ih proper]
    rfl

theorem short_start (line : CommandLine) {letter : Char} (lettered : flag.letter? = some letter) :
    short ⟨line, .nothing⟩ [letter] = start ⟨line, .nothing⟩ flag := by
  cases takes : flag.takesValue with
  | false =>
    rw [short_switch lettered takes]
    exact bind_pure _
  | true => simp [short, lettered?_letter lettered, takes]

theorem short_equated (line : CommandLine) {letter : Char}
    (lettered : flag.letter? = some letter) (takes : flag.takesValue = true) (value : List Char) :
    short ⟨line, .nothing⟩ (letter :: '=' :: value) =
      finish ⟨line, .nothing⟩ flag (String.ofList value) := by
  simp [short, lettered?_letter lettered, takes]

theorem short_joined (line : CommandLine) {letter : Char}
    (lettered : flag.letter? = some letter) (takes : flag.takesValue = true) {value : List Char}
    (filled : value.head? ≠ none) (bare : value.head? ≠ some '=') :
    short ⟨line, .nothing⟩ (letter :: value) =
      finish ⟨line, .nothing⟩ flag (String.ofList value) := by
  simp only [short, lettered?_letter lettered, takes, if_true]
  split
  · exact absurd rfl filled
  · exact absurd rfl bare
  · rfl

/-! ### Items -/

theorem argument_letters (ready : draft.IsReady) {others : List Flag}
    (proper : ∀ other ∈ others, other.letter?.isSome ∧ other.takesValue = false)
    {letter : Char} (lettered : flag.letter? = some letter) (rest : List Char) :
    draft.argument
        (String.ofList ('-' :: (others.filterMap Flag.letter? ++ letter :: rest))) =
      draft.settle >>= fun line ↦ (others.map Use.raise).foldlM Use.apply line >>= fun line ↦
        short ⟨line, .nothing⟩ (letter :: rest) := by
  rw [← short_letters proper lettered]
  cases others with
  | nil => exact argument_short ready (letter_ne_dash lettered) rest
  | cons other others =>
    obtain ⟨first, firstLettered⟩ := Option.isSome_iff_exists.1 (proper other List.mem_cons_self).1
    rw [List.filterMap_cons_some firstLettered, List.cons_append]
    exact argument_short ready (letter_ne_dash firstLettered) _

/-- A mention is read by raising the flags before the last one, which is started. -/
theorem argument_mention (ready : draft.IsReady) {mention : Mention} (proper : mention.IsProper) :
    draft.argument (String.ofList mention.text) =
      draft.settle >>= fun line ↦ (mention.others.map Use.raise).foldlM Use.apply line >>=
        fun line ↦ start ⟨line, .nothing⟩ mention.flag := by
  cases mention with
  | named flag =>
    rw [Mention.text, argument_long ready, long_name, start_eq]
    rfl
  | lettered others flag =>
    obtain ⟨letter, lettered⟩ := Option.isSome_iff_exists.1 proper.1
    rw [Mention.text, List.filterMap_append, List.filterMap_cons_some lettered, List.filterMap_nil,
      argument_letters ready proper.2 lettered]
    simp only [short_start _ lettered]
    rfl

theorem argument_equated (ready : draft.IsReady) {mention : Mention} (proper : mention.IsProper)
    (takes : mention.flag.takesValue = true) (value : String) :
    draft.argument (String.ofList (mention.text ++ '=' :: value.toList)) =
      draft.settle >>= fun line ↦ (mention.others.map Use.raise).foldlM Use.apply line >>=
        fun line ↦ finish ⟨line, .nothing⟩ mention.flag value := by
  cases mention with
  | named flag =>
    change flag.takesValue = true at takes
    rw [Mention.text, List.cons_append, List.cons_append, argument_long ready,
      long_equated draft takes, String.ofList_toList, finish_eq]
    rfl
  | lettered others flag =>
    obtain ⟨letter, lettered⟩ := Option.isSome_iff_exists.1 proper.1
    rw [Mention.text, List.filterMap_append, List.filterMap_cons_some lettered, List.filterMap_nil,
      List.cons_append, List.append_assoc, List.singleton_append,
      argument_letters ready proper.2 lettered]
    simp only [short_equated _ lettered takes, String.ofList_toList]
    rfl

theorem argument_joined (ready : draft.IsReady) {others : List Flag} {value : String}
    (proper : (Item.joined others flag value).IsProper) :
    draft.argument (String.ofList ((Mention.lettered others flag).text ++ value.toList)) =
      draft.settle >>= fun line ↦ (others.map Use.raise).foldlM Use.apply line >>=
        fun line ↦ finish ⟨line, .nothing⟩ flag value := by
  obtain ⟨⟨has, switches⟩, takes, filled, bare⟩ := proper
  obtain ⟨letter, lettered⟩ := Option.isSome_iff_exists.1 has
  rw [Mention.text, List.filterMap_append, List.filterMap_cons_some lettered, List.filterMap_nil,
    List.cons_append, List.append_assoc, List.singleton_append,
    argument_letters ready switches lettered]
  simp only [short_joined _ lettered takes filled bare, String.ofList_toList]

theorem run_cons {argument : String} (other : draft.isEnd argument = false) (rest : List String) :
    draft.run (argument :: rest) = draft.argument argument >>= fun draft ↦ draft.run rest := by
  simp only [run, arguments, other, Bool.false_eq_true, if_false, bind_assoc]

theorem isEnd_mention (draft : Draft) {mention : Mention} (proper : mention.IsProper)
    (rest : List Char) : draft.isEnd (String.ofList (mention.text ++ rest)) = false := by
  apply isEnd_eq_false
  rw [← String.ofList_toList (s := "--"), Ne, String.ofList_inj]
  cases mention with
  | named flag =>
    intro ends
    rw [Mention.text, List.cons_append, List.cons_append] at ends
    have nothing : flag.name.toList ++ rest = [] := (List.cons.inj (List.cons.inj ends).2).2
    exact name_ne_nil flag (List.append_eq_nil_iff.1 nothing).1
  | lettered others flag =>
    obtain ⟨letter, lettered⟩ := Option.isSome_iff_exists.1 proper.1
    cases others with
    | nil => simp [Mention.text, lettered, letter_ne_dash lettered]
    | cons other others =>
      obtain ⟨first, firstLettered⟩ :=
        Option.isSome_iff_exists.1 (proper.2 other List.mem_cons_self).1
      simp [Mention.text, firstLettered, letter_ne_dash firstLettered]

/-- A use of flags that an argument stands for comes before those of the arguments behind it. -/
theorem run_of_argument {others : List Flag} {argument : String} {rest : List String} {last : Use}
    {go : CommandLine → Except UsageError Draft}
    {behind : CommandLine → Except UsageError CommandLine}
    (other : draft.isEnd argument = false)
    (read : draft.argument argument =
      draft.settle >>= fun line ↦ (others.map Use.raise).foldlM Use.apply line >>= go)
    (used : ∀ line, (go line >>= fun draft ↦ draft.run rest) = last.apply line >>= behind) :
    draft.run (argument :: rest) =
      draft.settle >>= fun line ↦
        (others.map Use.raise ++ [last]).foldlM Use.apply line >>= behind := by
  rw [run_cons other, read, bind_assoc]
  congr
  funext line
  rw [bind_assoc, List.foldlM_append, bind_assoc]
  congr
  funext line
  simp only [used, List.foldlM_cons, List.foldlM_nil, bind_pure]

/-- Reading items uses their flags one after the other. -/
theorem run_items {items : List Item} (proper : ∀ item ∈ items, item.IsProper)
    (ready : draft.IsReady) :
    draft.run (items.flatMap Item.arguments) =
      draft.settle >>= fun line ↦ (items.flatMap Item.uses).foldlM Use.apply line := by
  induction items generalizing draft with
  | nil => exact (bind_pure draft.settle).symm
  | cons item items ih =>
    obtain ⟨first, others⟩ := List.forall_mem_cons.1 proper
    have finished (line : CommandLine) (flag : Flag) (value : String) :
        (finish ⟨line, .nothing⟩ flag value >>= fun draft ↦
          draft.run (items.flatMap Item.arguments)) =
        (Use.store flag value).apply line >>=
          (items.flatMap Item.uses).foldlM Use.apply := by
      rw [finish_nothing, bind_assoc]
      congr
      funext line
      exact ih others (isReady_nothing line)
    rw [List.flatMap_cons, List.flatMap_cons]
    simp only [List.foldlM_append]
    cases item with
    | alone mention =>
      obtain ⟨mentioned, takes⟩ := first
      have notEnd := isEnd_mention draft mentioned []
      rw [List.append_nil] at notEnd
      refine run_of_argument notEnd (argument_mention ready mentioned) fun line ↦ ?_
      rw [start_of_not_takesValue line takes, bind_assoc]
      congr
      funext line
      exact ih others (isReady_nothing line)
    | apart mention value =>
      obtain ⟨mentioned, takes, plain⟩ := first
      have notEnd := isEnd_mention draft mentioned []
      rw [List.append_nil] at notEnd
      refine run_of_argument notEnd (argument_mention ready mentioned) fun line ↦ ?_
      rw [start_of_takesValue line takes]
      calc
        _ = run ⟨line, .awaiting mention.flag⟩ (value :: items.flatMap Item.arguments) := rfl
        _ = run ⟨line, .given mention.flag value⟩ (items.flatMap Item.arguments) := by
          rw [run_cons (isEnd_value line plain), argument_value line plain]
          rfl
        _ = _ := ih others (isReady_given line mention.flag value)
    | equated mention value =>
      obtain ⟨mentioned, takes⟩ := first
      exact run_of_argument (isEnd_mention _ mentioned _)
        (argument_equated ready mentioned takes value) fun line ↦ finished line _ _
    | joined before flag value =>
      exact run_of_argument (isEnd_mention _ first.1 _) (argument_joined ready first)
        fun line ↦ finished line _ _

end Draft

/-! ## What is used once -/

namespace Use

/-- Whether a flag can be used so: its value is one that it takes, and it does not ask for help. -/
def IsValid : Use → Prop
  | store .model value => ∃ kind, ModelKind.ofText value = .ok kind
  | store .config value => value ≠ ""
  | store .scorerCommand _ => True
  | store .scorerArg _ => True
  | store .timeoutSeconds value => ∃ number, natural value = .ok number
  | store _ _ => False
  | raise flag => flag = .verbose ∨ flag = .jsonLogs

def value? (flag : Flag) : Use → Option String
  | store other value => if other = flag then some value else none
  | raise _ => none

end Use

def values (flag : Flag) (uses : List Use) : List String :=
  uses.filterMap (Use.value? flag)

/-- The command line that says what uses say, each flag having one value at most; only arguments of
the scorer program may be several. -/
def ofUses (uses : List Use) : CommandLine :=
  { model := (values .model uses).head?.bind fun value ↦ (ModelKind.ofText value).toOption
    config := (values .config uses).head?
    scorerCommand := (values .scorerCommand uses).head?
    scorerArgs := values .scorerArg uses
    timeoutSeconds := (values .timeoutSeconds uses).head?.bind fun value ↦ (natural value).toOption
    verbose := decide (.raise .verbose ∈ uses)
    jsonLogs := decide (.raise .jsonLogs ∈ uses) }

section OfUses

variable {flag other : Flag} {uses : List Use} {value : String}

theorem values_eq_nil (unused : flag ∉ uses.map Use.flag) : values flag uses = [] := by
  refine List.filterMap_eq_nil_iff.2 fun use mem ↦ ?_
  cases use with
  | raise _ => rfl
  | store other value =>
    have differs : other ≠ flag := fun same ↦ unused (List.mem_map.2 ⟨_, mem, same⟩)
    exact if_neg differs

theorem raise_notMem (unused : flag ∉ uses.map Use.flag) : .raise flag ∉ uses :=
  fun mem ↦ unused (List.mem_map.2 ⟨_, mem, rfl⟩)

theorem values_append_store (flag other : Flag) (uses : List Use) (value : String) :
    values flag (uses ++ [.store other value]) =
      values flag uses ++ if other = flag then [value] else [] := by
  rw [values, List.filterMap_append]
  by_cases same : other = flag <;> simp [same, Use.value?, values]

theorem values_append_raise (flag other : Flag) (uses : List Use) :
    values flag (uses ++ [.raise other]) = values flag uses := by
  rw [values, List.filterMap_append]
  simp [Use.value?, values]

theorem store_model {line : CommandLine} (absent : line.model = none) {kind : ModelKind}
    (read : ModelKind.ofText value = .ok kind) :
    line.store .model value = .ok { line with model := some kind } := by
  simp only [store, once, absent, read, checked, Except.mapError]
  rfl

theorem store_config {line : CommandLine} (absent : line.config = none) (filled : value ≠ "") :
    line.store .config value = .ok { line with config := some value } := by
  have given : value.isEmpty = false := by simpa using filled
  simp only [store, once, absent, given]
  rfl

theorem store_scorerCommand {line : CommandLine} (absent : line.scorerCommand = none)
    (value : String) :
    line.store .scorerCommand value = .ok { line with scorerCommand := some value } := by
  simp only [store, once, absent]
  rfl

theorem store_timeoutSeconds {line : CommandLine} (absent : line.timeoutSeconds = none)
    {number : Nat} (read : natural value = .ok number) :
    line.store .timeoutSeconds value = .ok { line with timeoutSeconds := some number } := by
  simp only [store, once, absent, read, checked]
  rfl

/-- A valid use of a flag adds to a command line in which the flag has not been used, if it may be
used only once. -/
theorem apply_ofUses {use : Use} (valid : use.IsValid)
    (unused : use.flag ≠ .scorerArg → use.flag ∉ uses.map Use.flag) :
    use.apply (ofUses uses) = .ok (ofUses (uses ++ [use])) := by
  cases use with
  | raise flag =>
    obtain rfl | rfl := valid
    · have fresh : .raise .verbose ∉ uses := raise_notMem (unused nofun)
      simp [Use.apply, CommandLine.raise, ofUses, values_append_raise, fresh]
    · have fresh : .raise .jsonLogs ∉ uses := raise_notMem (unused nofun)
      simp [Use.apply, CommandLine.raise, ofUses, values_append_raise, fresh]
  | store flag value => cases flag with
    | model =>
      obtain ⟨kind, read⟩ := valid
      have fresh : values .model uses = [] := values_eq_nil (unused nofun)
      rw [Use.apply, store_model (by simp [ofUses, fresh]) read]
      simp [ofUses, values_append_store, fresh, read, Except.toOption]
    | config =>
      have fresh : values .config uses = [] := values_eq_nil (unused nofun)
      rw [Use.apply, store_config (by simp [ofUses, fresh]) valid]
      simp [ofUses, values_append_store, fresh]
    | scorerCommand =>
      have fresh : values .scorerCommand uses = [] := values_eq_nil (unused nofun)
      rw [Use.apply, store_scorerCommand (by simp [ofUses, fresh])]
      simp [ofUses, values_append_store, fresh]
    | scorerArg =>
      change Except.ok { ofUses uses with scorerArgs := values .scorerArg uses ++ [value] } = _
      simp [ofUses, values_append_store]
    | timeoutSeconds =>
      obtain ⟨number, read⟩ := valid
      have fresh : values .timeoutSeconds uses = [] := values_eq_nil (unused nofun)
      rw [Use.apply, store_timeoutSeconds (by simp [ofUses, fresh]) read]
      simp [ofUses, values_append_store, fresh, read, Except.toOption]
    | verbose | jsonLogs | help => exact valid.elim

/-- Valid uses of flags, each at most once where it may not be repeated, make a command line. -/
theorem foldlM_apply_empty (valid : ∀ use ∈ uses, use.IsValid)
    (once : ∀ flag, flag ≠ .scorerArg → (uses.map Use.flag).count flag ≤ 1) :
    uses.foldlM Use.apply empty = .ok (ofUses uses) := by
  induction uses using List.reverseRecOn with
  | nil => rfl
  | append_singleton uses use ih =>
    obtain ⟨earlier, last⟩ := List.forall_mem_append.1 valid
    have counted (flag : Flag) (single : flag ≠ .scorerArg) :
        (uses.map Use.flag).count flag + [use.flag].count flag ≤ 1 := by
      rw [← List.count_append]
      simpa using once flag single
    rw [List.foldlM_append, ih earlier fun flag single ↦ (Nat.le_add_right _ _).trans
      (counted flag single)]
    change [use].foldlM Use.apply (ofUses uses) = _
    rw [List.foldlM_cons, apply_ofUses (last use List.mem_cons_self)]
    · rfl
    · intro single
      have first := counted use.flag single
      rw [List.count_singleton_self] at first
      exact List.count_eq_zero.1 (by omega)

end OfUses

/-! ## Scorer programs -/

/-- The arguments of a scorer program are taken as they are and in their order, whatever they look
like, and its command likewise, wherever other flags stand between them.  The other flags have the
values that they are given. -/
theorem parse_takes_scorer {items : List Item} {command : String} {arguments : List String}
    (proper : ∀ item ∈ items, item.IsProper)
    (valid : ∀ use ∈ items.flatMap Item.uses, use.IsValid)
    (once : ∀ flag, flag ≠ .scorerArg →
      ((items.flatMap Item.uses).map Use.flag).count flag ≤ 1)
    (named : values .scorerCommand (items.flatMap Item.uses) = [command])
    (passed : values .scorerArg (items.flatMap Item.uses) = arguments) :
    ∃ line, parse (items.flatMap Item.arguments) = .ok line ∧
      line.overrides =
        { model := (values .model (items.flatMap Item.uses)).head?.bind fun value ↦
            (ModelKind.ofText value).toOption
          scorer := some ⟨command, arguments, none⟩
          timeoutSeconds := (values .timeoutSeconds (items.flatMap Item.uses)).head?.bind
            fun value ↦ (natural value).toOption
          verbose := decide (.raise .verbose ∈ items.flatMap Item.uses)
          jsonLogs := decide (.raise .jsonLogs ∈ items.flatMap Item.uses) } ∧
      line.config = (values .config (items.flatMap Item.uses)).head? := by
  refine ⟨ofUses (items.flatMap Item.uses), ?_, ?_, rfl⟩
  · calc
      _ = Draft.run ⟨empty, .nothing⟩ (items.flatMap Item.arguments) := rfl
      _ = (items.flatMap Item.uses).foldlM Use.apply empty :=
        Draft.run_items proper (Draft.isReady_nothing empty)
      _ = _ := foldlM_apply_empty valid once
  · simp [overrides, ofUses, named, passed]

/-- Arguments that look like flags, and other flags between them. -/
def mixedItems : List Item :=
  [.apart (.lettered [.verbose] .model) "graphlet", .apart (.named .scorerArg) "--",
    .apart (.named .scorerArg) "--scorer-command", .apart (.named .scorerCommand) "run it",
    .equated (.named .config) "-v", .apart (.named .scorerArg) "", .alone (.named .jsonLogs),
    .equated (.named .scorerArg) "--model=mapper"]

theorem parse_takes_scorer_at_flags :
    ∃ line, parse ["-vm", "graphlet", "--scorer-arg", "--", "--scorer-arg", "--scorer-command",
        "--scorer-command", "run it", "--config=-v", "--scorer-arg", "", "--json-logs",
        "--scorer-arg=--model=mapper"] = .ok line ∧
      line.overrides = ⟨some .graphlet,
        some ⟨"run it", ["--", "--scorer-command", "", "--model=mapper"], none⟩, none, true, true⟩ ∧
      line.config = some "-v" := by
  have valid : ∀ use ∈ mixedItems.flatMap Item.uses, use.IsValid := by
    have read : ModelKind.ofText "graphlet" = .ok .graphlet :=
      eq_ok_of_toOption (by decide +kernel)
    simp [mixedItems, Item.uses, Mention.others, Mention.flag, Use.IsValid, read]
  have once (flag : Flag) (single : flag ≠ .scorerArg) :
      ((mixedItems.flatMap Item.uses).map Use.flag).count flag ≤ 1 := by
    cases flag with
    | scorerArg => exact absurd rfl single
    | _ => decide
  obtain ⟨line, parsed, overrides_eq, config_eq⟩ :=
    parse_takes_scorer (show ∀ item ∈ mixedItems, item.IsProper by decide) valid once rfl rfl
  exact ⟨line, parsed, overrides_eq.trans (by decide +kernel), config_eq⟩

end CommandLine

end SpanScore
