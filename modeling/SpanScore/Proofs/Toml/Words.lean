import Mathlib.Data.List.Forall2
import SpanScore.Proofs.Toml.Strings
import SpanScore.Toml.Read

/-!
# Keys, headers and plain values

What is not a string value is read alike from texts that go on alike up to a quote: keys, also in
quotes, paths of keys, headers, and values without quotes.
-/

namespace SpanScore.Toml

/-! ## Keys that are the same -/

/-- Whether keys are the same, wherever they stand. -/
def SameKey (key key' : Key) : Prop :=
  key.value = key'.value

def SamePath (path path' : List Key × Key) : Prop :=
  List.Forall₂ SameKey path.1 path'.1 ∧ SameKey path.2 path'.2

/-- Whether headers are the same, wherever they stand. -/
inductive SameHeader : Line → Line → Prop
  | table {region region' : Region} {path path' : List Key × Key} (same : SamePath path path') :
    SameHeader (.table region path.1 path.2) (.table region' path'.1 path'.2)
  | item {region region' : Region} {path path' : List Key × Key} (same : SamePath path path') :
    SameHeader (.item region path.1 path.2) (.item region' path'.1 path'.2)

namespace Reader

theorem follows_simpleKey : Follows simpleKey simpleKey SameKey := by
  refine Follows.located (show Follows _ _ Eq from follows_peek.bind_eq fun found ↦ ?_)
  split
  · exact follows_line
  · exact follows_line
  · exact (follows_takeWhile isKeyChar).bind_eq fun _ ↦ .ite (follows_fail _) (follows_pure rfl)

theorem follows_pathFrom (fuel : Nat) {path path' : List Key}
    (same : List.Forall₂ SameKey path path') :
    Follows (pathFrom path fuel) (pathFrom path' fuel) SamePath := by
  induction fuel generalizing path path' with
  | zero => exact follows_fail _
  | succ fuel ih =>
    refine follows_blanks.bind_eq fun _ ↦ follows_simpleKey.bind fun key key' sameKey ↦ ?_
    have longer := List.rel_append same (.cons sameKey .nil)
    exact follows_blanks.bind_eq fun _ ↦ (follows_takeIf (by simp [IsQuote])).bind_eq fun _ ↦
      .ite (ih longer) (follows_pure ⟨same, sameKey⟩)

theorem pathFrom_succ {path : List Key} (fuel : Nat) (cursor : Cursor)
    (h : cursor.rest.length < fuel) :
    pathFrom path (fuel + 1) cursor = pathFrom path fuel cursor := by
  induction fuel generalizing path cursor with
  | zero => exact absurd h (Nat.not_lt_zero _)
  | succ fuel ih =>
    refine bind_congr_of_run fun _ _ ran ↦ bind_congr_of_run fun key _ ran' ↦
      bind_congr_of_run fun _ _ ran'' ↦ bind_congr_of_run fun dot after dotRan ↦ ?_
    obtain ⟨_, passes, -⟩ := follows_blanks ran
    obtain ⟨_, passes', -⟩ := follows_simpleKey ran'
    obtain ⟨_, passes'', -⟩ := follows_blanks ran''
    obtain ⟨rfl, dotPasses⟩ | ⟨rfl, -⟩ := takeIf_cases dotRan
    · have length := (((passes.trans passes').trans passes'').trans dotPasses).length_eq
      simp only [List.length_append, List.length_singleton] at length
      exact ih after (by omega)
    · rfl

theorem follows_path : Follows path path SamePath :=
  .of_fuel (fun cursor _ h ↦ eq_of_step (pathFrom [] · cursor)
    (fun fuel h ↦ pathFrom_succ fuel cursor h) (Nat.lt_succ_self _) h)
    fun fuel ↦ follows_pathFrom fuel .nil

theorem follows_header : Follows header header SameHeader := by
  refine Follows.bind (Follows.located (show Follows _ _ (fun found found' ↦
    found.1 = found'.1 ∧ SamePath found.2 found'.2) from
      (follows_takeIf (by simp [IsQuote])).bind_eq fun doubled ↦ ?_)) ?_
  · refine .ite ((follows_exactly '[').bind_eq fun _ ↦ ?_) ?_
    all_goals
      refine follows_path.bind fun found found' same ↦ (follows_exactly ']').bind_eq fun _ ↦ ?_
      exact .ite ((follows_exactly ']').bind_eq fun _ ↦ follows_pure ⟨rfl, same⟩)
        (follows_pure ⟨rfl, same⟩)
  · rintro ⟨region, doubled, keys⟩ ⟨region', _, keys'⟩ ⟨rfl, same⟩
    refine follows_pure ?_
    cases doubled
    · exact .table same
    · exact .item same

/-! ## Values without quotes -/

/-- What a reader does may depend on what is the same in texts that go on alike. -/
theorem Follows.look {α β : Type} {look : List Char → β} {next next' : β → Reader α}
    {same : α → α → Prop}
    (alike_eq : ∀ text text', AlikeToQuote text text' → look text = look text')
    (follows : ∀ found, Follows (next found) (next' found) same) :
    Follows (rest >>= fun text ↦ next (look text)) (rest >>= fun text ↦ next' (look text))
      same := by
  intro cursor value after ran
  obtain ⟨taken, passes, again⟩ := follows _ (show next (look cursor.rest) cursor = _ from ran)
  refine ⟨taken, passes, fun rest offset alike ↦ ?_⟩
  obtain ⟨value', ran', isSame⟩ := again rest offset alike
  refine ⟨value', ?_, isSame⟩
  rw [bind_run (show Reader.rest _ = _ from rfl),
    ← alike_eq _ _ (passes.rest_eq ▸ alike.append taken)]
  exact ran'

/-- What stands behind a blank. -/
def behindBlank? : List Char → Option Char
  | blank :: char :: _ => if blank = ' ' then some char else none
  | _ => none

/-- A date with the time that begins behind a blank, if one does. -/
def withTime (date : List Char) : Option Char → Reader (List Char)
  | some digit =>
    if Scalar.date? date == some [] && digit.isDigit then do
      discard next
      return date ++ 'T' :: (← takeWhile isScalarChar)
    else return date
  | none => return date

theorem timeBehind_eq (date : List Char) :
    timeBehind date = (rest >>= fun text ↦ withTime date (behindBlank? text)) := by
  refine congrArg (rest >>= ·) (funext fun text ↦ ?_)
  split
  · rfl
  · next other =>
    match text with
    | [] => rfl
    | [_] => rfl
    | blank :: char :: _ =>
      have differs : blank ≠ ' ' := fun eq ↦ other char _ (by rw [eq])
      rw [behindBlank?, if_neg differs]
      rfl

theorem behindBlank?_eq (text text' : List Char) (alike : AlikeToQuote text text') :
    behindBlank? text = behindBlank? text' := by
  obtain rfl | ⟨same, quote, more, more', isQuote, rfl, rfl⟩ := alike
  · rfl
  · match same with
    | [] =>
      have differs : quote ≠ ' ' := by obtain rfl | rfl := isQuote <;> decide
      have none (more : List Char) : behindBlank? (quote :: more) = none := by
        cases more with
        | nil => rfl
        | cons => exact if_neg differs
      exact (none more).trans (none more').symm
    | [_] => rfl
    | _ :: _ :: _ => rfl

theorem follows_timeBehind (date : List Char) :
    Follows (timeBehind date) (timeBehind date) Eq := by
  rw [timeBehind_eq]
  refine Follows.look behindBlank?_eq fun digit ↦ ?_
  cases digit with
  | none => exact follows_pure rfl
  | some digit =>
    exact .ite (follows_next.discard.bind_eq fun _ ↦ (follows_takeWhile _).bind_eq fun _ ↦
      follows_pure rfl) (follows_pure rfl)

theorem follows_scalarValue : Follows scalarValue scalarValue Eq := by
  refine (follows_takeWhile isScalarChar).bind_eq fun word ↦
    (follows_timeBehind word).bind_eq fun text ↦ ?_
  split
  · exact follows_pure rfl
  · exact follows_fail _

end Reader

end SpanScore.Toml
