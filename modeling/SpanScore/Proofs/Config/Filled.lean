import SpanScore.Config.Decode
import SpanScore.Proofs.Toml.Trees

/-!
# Configurations with other strings in them

Decoding reads the strings of a tree without looking into them, but for the names of models, none of
which holds a dollar.  Main statement: where a tree is a configuration, so is one that is the same
but for its strings, and that configuration is the same but for them.
-/

namespace SpanScore

open Toml (Entry Fault Filled FilledEntry Filling Located Node SameKey)

/-! ## Configurations -/

/-- Whether a scorer is the same as another one but for its texts. -/
structure ScorerCommand.SameBut (fills : String → String → Prop)
    (scorer scorer' : ScorerCommand) : Prop where
  command : fills scorer.command scorer'.command
  args : List.Forall₂ fills scorer.args scorer'.args
  timeoutSeconds_eq : scorer'.timeoutSeconds = scorer.timeoutSeconds

/-- Whether what is said about the log is the same but for its texts. -/
structure Logging.SameBut (fills : String → String → Prop) (logging logging' : Logging) :
    Prop where
  verbose_eq : logging'.verbose = logging.verbose
  format : Option.Rel fills logging.format logging'.format

/-- Whether a configuration is the same as another one but for its texts. -/
structure FileConfig.SameBut (fills : String → String → Prop) (config config' : FileConfig) :
    Prop where
  model_eq : config'.model = config.model
  external : Option.Rel (ScorerCommand.SameBut fills) config.external config'.external
  logging : Option.Rel (Logging.SameBut fills) config.logging config'.logging

namespace Decode

/-! ## Results that match -/

section Matches

variable {α α' β β' : Type}

/-- Whether a result, if there is one, is matched by a related one. -/
def Matches (related : α → α' → Prop) (found : Except Fault α) (found' : Except Fault α') : Prop :=
  ∀ ⦃value⦄, found = .ok value → ∃ value', found' = .ok value' ∧ related value value'

variable {related : α → α' → Prop} {related' : β → β' → Prop} {found : Except Fault α}
  {found' : Except Fault α'}

theorem Matches.ok {value : α} {value' : α'} (h : related value value') :
    Matches related (.ok value) (.ok value') := by
  rintro _ ⟨⟩
  exact ⟨value', rfl, h⟩

theorem Matches.error (fault : Fault) : Matches related (.error fault) found' := by
  rintro _ ⟨⟩

theorem Matches.bind {next : α → Except Fault β} {next' : α' → Except Fault β'}
    (first : Matches related found found')
    (second : ∀ ⦃value value'⦄, related value value' →
      Matches related' (next value) (next' value')) :
    Matches related' (found >>= next) (found' >>= next') := by
  intro result ran
  cases found_eq : found with
  | error fault =>
    rw [found_eq] at ran
    cases ran
  | ok value =>
    rw [found_eq] at ran
    obtain ⟨value', found_eq', isRelated⟩ := first found_eq
    rw [found_eq']
    exact second isRelated ran

/-- Nothing matches what only fails. -/
theorem Matches.discard (found' : Except Fault β') {next : Except Fault β}
    (fails : Matches related' next found') :
    Matches related' (discard found >>= fun _ ↦ next) found' := by
  intro result ran
  cases found_eq : found with
  | error fault =>
    rw [found_eq] at ran
    cases ran
  | ok value =>
    rw [found_eq] at ran
    exact fails ran

theorem Matches.mapM {γ γ' : Type} {items : List γ} {items' : List γ'} {same : γ → γ' → Prop}
    {decode : γ → Except Fault α} {decode' : γ' → Except Fault α'}
    (all : List.Forall₂ same items items')
    (each : ∀ ⦃item item'⦄, same item item' → Matches related (decode item) (decode' item')) :
    Matches (List.Forall₂ related) (items.mapM decode) (items'.mapM decode') := by
  induction all with
  | nil => exact .ok .nil
  | cons first _ ih =>
    rw [List.mapM_cons, List.mapM_cons]
    exact (each first).bind fun _ _ head ↦ ih.bind fun _ _ tail ↦ .ok (.cons head tail)

theorem Matches.foldlM {γ γ' : Type} {items : List γ} {items' : List γ'} {same : γ → γ' → Prop}
    {step : α → γ → Except Fault α} {step' : α' → γ' → Except Fault α'} {start : α} {start' : α'}
    (all : List.Forall₂ same items items') (starts : related start start')
    (each : ∀ ⦃draft draft' item item'⦄, related draft draft' → same item item' →
      Matches related (step draft item) (step' draft' item')) :
    Matches related (items.foldlM step start) (items'.foldlM step' start') := by
  induction all generalizing start start' with
  | nil => exact .ok starts
  | cons first _ ih =>
    rw [List.foldlM_cons, List.foldlM_cons]
    exact (each starts first).bind fun _ _ next ↦ ih next

end Matches

/-! ## Nodes with a meaning -/

/-- Whether some place of a document has one text in the place of another one. -/
def Somewhere (fills : Filling) (text text' : String) : Prop :=
  ∃ region, fills region text text'

section

variable {fills : Filling} {node node' : Located Node}

theorem string_matches (filled : Filled fills node node') :
    Matches (Somewhere fills) (string node) (string node') := by
  cases filled with
  | string filled => exact .ok ⟨_, filled⟩
  | _ => exact .error _

theorem boolean_matches (filled : Filled fills node node') :
    Matches Eq (boolean node) (boolean node') := by
  cases filled with
  | scalar value =>
    cases value with
    | boolean => exact .ok rfl
    | _ => exact .error _
  | _ => exact .error _

theorem natural_matches (filled : Filled fills node node') :
    Matches Eq (natural node) (natural node') := by
  cases filled with
  | scalar value =>
    cases value with
    | integer value =>
      simp only [natural]
      split
      · exact .ok rfl
      · split <;> exact .error _
    | _ => exact .error _
  | _ => exact .error _

theorem strings_matches (filled : Filled fills node node') :
    Matches (List.Forall₂ (Somewhere fills)) (strings node) (strings node') := by
  cases filled with
  | array _ nodes => exact .mapM nodes fun _ _ ↦ string_matches
  | _ => exact .error _

/-- No model has a dollar in its name. -/
theorem notMem_of_named? {name : String} {kind : ModelKind}
    (named : ModelKind.named? name = some kind) : '$' ∉ name.toList := by
  obtain rfl : kind.name = name := by simpa using List.find?_some named
  cases kind <;> decide

/-- Texts without a dollar are left as they are. -/
def KeepsPlain (fills : Filling) : Prop :=
  ∀ ⦃region text text'⦄, fills region text text' → '$' ∉ text.toList → text' = text

/-- A key that names a model does so over any node without contents. -/
theorem kind_single_matches {region region' : Toml.Region} {origin : Toml.Origin}
    {key key' : Toml.Key} (key_eq : key.value = key'.value) (filled : Filled fills node node') :
    Matches Eq (kind ⟨region, .table origin [(key, node)]⟩)
      (kind ⟨region', .table origin [(key', node')]⟩) := by
  simp only [kind, key_eq]
  cases ModelKind.named? key'.value with
  | none => exact .error _
  | some kind => cases filled with
    | array _ inner => cases inner with
      | nil => exact .ok rfl
      | cons => exact .error _
    | @table _ _ _ entries entries' keys =>
      cases entries <;> cases entries' <;> cases keys
      · exact .ok rfl
      · exact .error _
    | _ => exact .error _

theorem kind_matches (keeps : KeepsPlain fills) (filled : Filled fills node node') :
    Matches Eq (kind node) (kind node') := by
  cases filled with
  | @string _ _ text text' filled =>
    simp only [kind]
    cases named : ModelKind.named? text with
    | none => exact .error _
    | some kind =>
      obtain rfl := keeps filled (notMem_of_named? named)
      rw [named]
      exact .ok rfl
  | scalar => exact .error _
  | array => exact .error _
  | table _ keys nodes =>
    cases Toml.forall₂_filledEntry_iff.2 ⟨keys, nodes⟩ with
    | nil => exact .error _
    | cons first more => cases more with
      | nil => exact kind_single_matches first.1 first.2
      | cons => exact .error _

/-- Whether the parts of tables are the same but for strings. -/
inductive SameParts (fills : Filling) : Parts → Parts → Prop
  | entries {entries entries' : List Entry}
    (filled : List.Forall₂ (FilledEntry fills) entries entries') :
    SameParts fills (.entries entries) (.entries entries')
  | items {items items' : List (Located Node)} (filled : List.Forall₂ (Filled fills) items items') :
    SameParts fills (.items items) (.items items')

theorem parts_matches (expected : String) (filled : Filled fills node node') :
    Matches (SameParts fills) (parts expected node) (parts expected node') := by
  cases filled with
  | string => exact .error _
  | scalar value =>
    cases value with
    | date => exact .ok (.entries .nil)
    | _ => exact .error _
  | array _ nodes => exact .ok (.items nodes)
  | table _ keys nodes => exact .ok (.entries (Toml.forall₂_filledEntry_iff.2 ⟨keys, nodes⟩))

/-! ## Tables -/

theorem model_matches (keeps : KeepsPlain fills) (filled : Filled fills node node') :
    Matches Eq (model node) (model node') := by
  refine (parts_matches _ filled).bind fun parts parts' same ↦ ?_
  cases same with
  | @entries entries entries' filled =>
    have found := Toml.Table.find?_filled "kind" filled
    dsimp only
    generalize Toml.Table.find? "kind" entries = under,
      Toml.Table.find? "kind" entries' = under' at found ⊢
    cases found with
    | none => exact .error _
    | some filled => exact kind_matches keeps filled
  | items filled =>
    cases filled with
    | nil => exact .error _
    | cons first _ => exact kind_matches keeps first

/-- Whether drafts of a scorer are the same but for their texts. -/
structure CommandDraft.SameBut (fills : String → String → Prop) (draft draft' : CommandDraft) :
    Prop where
  command : Option.Rel fills draft.command draft'.command
  args : List.Forall₂ fills draft.args draft'.args
  timeoutSeconds_eq : draft'.timeoutSeconds = draft.timeoutSeconds

theorem commandEntry_matches {draft draft' : CommandDraft} {entry entry' : Entry}
    (same : draft.SameBut (Somewhere fills) draft') (filled : FilledEntry fills entry entry') :
    Matches (CommandDraft.SameBut (Somewhere fills)) (commandEntry draft entry)
      (commandEntry draft' entry') := by
  obtain ⟨key_eq, filled⟩ := filled
  unfold commandEntry
  rw [← show entry.1.value = entry'.1.value from key_eq]
  split
  · exact (string_matches filled).bind fun _ _ isFilled ↦
      .ok ⟨.some isFilled, same.args, same.timeoutSeconds_eq⟩
  · exact (strings_matches filled).bind fun _ _ areFilled ↦
      .ok ⟨same.command, areFilled, same.timeoutSeconds_eq⟩
  · exact (natural_matches filled).bind fun _ _ eq ↦
      .ok ⟨same.command, same.args, congrArg some eq.symm⟩
  · exact .ok same

theorem external_matches (filled : Filled fills node node') :
    Matches (ScorerCommand.SameBut (Somewhere fills)) (external node) (external node') := by
  refine (parts_matches _ filled).bind fun parts parts' same ↦ ?_
  cases same with
  | entries filled =>
    refine (Matches.foldlM filled ⟨.none, .nil, rfl⟩ fun _ _ _ _ ↦ commandEntry_matches).bind ?_
    intro draft draft' same
    obtain ⟨command, args, timeout⟩ := draft
    obtain ⟨command', args', timeout'⟩ := draft'
    cases same.command with
    | none => exact .error _
    | some isFilled => exact .ok ⟨isFilled, same.args, same.timeoutSeconds_eq⟩
  | items filled =>
    cases filled with
    | nil => exact .error _
    | cons command filled => cases filled with
      | nil => exact .discard _ (.error _)
      | cons args filled => cases filled with
        | nil => exact .discard _ (.discard _ (.error _))
        | cons timeout _ =>
          exact (string_matches command).bind fun _ _ command ↦
            (strings_matches args).bind fun _ _ args ↦
              (natural_matches timeout).bind fun _ _ eq ↦
                .ok ⟨command, args, congrArg some eq.symm⟩

theorem loggingEntry_matches {logging logging' : Logging} {entry entry' : Entry}
    (same : logging.SameBut (Somewhere fills) logging') (filled : FilledEntry fills entry entry') :
    Matches (Logging.SameBut (Somewhere fills)) (loggingEntry logging entry)
      (loggingEntry logging' entry') := by
  obtain ⟨key_eq, filled⟩ := filled
  unfold loggingEntry
  rw [← show entry.1.value = entry'.1.value from key_eq]
  split
  · exact (boolean_matches filled).bind fun _ _ eq ↦ .ok ⟨congrArg some eq.symm, same.format⟩
  · exact (string_matches filled).bind fun _ _ isFilled ↦ .ok ⟨same.verbose_eq, .some isFilled⟩
  · exact .ok same

theorem logging_matches (filled : Filled fills node node') :
    Matches (Logging.SameBut (Somewhere fills)) (logging node) (logging node') := by
  refine (parts_matches _ filled).bind fun parts parts' same ↦ ?_
  cases same with
  | entries filled => exact .foldlM filled ⟨rfl, .none⟩ fun _ _ _ _ ↦ loggingEntry_matches
  | items filled =>
    cases filled with
    | nil => exact .error _
    | cons verbose filled => cases filled with
      | nil => exact .discard _ (.error _)
      | cons format _ =>
        exact (boolean_matches verbose).bind fun _ _ eq ↦
          (string_matches format).bind fun _ _ isFilled ↦
            .ok ⟨congrArg some eq.symm, .some isFilled⟩

theorem entry_matches (keeps : KeepsPlain fills) {config config' : FileConfig}
    {entry entry' : Entry} (same : config.SameBut (Somewhere fills) config')
    (filled : FilledEntry fills entry entry') :
    Matches (FileConfig.SameBut (Somewhere fills)) (Decode.entry config entry)
      (Decode.entry config' entry') := by
  obtain ⟨key_eq, filled⟩ := filled
  unfold Decode.entry
  rw [← show entry.1.value = entry'.1.value from key_eq]
  split
  · exact (model_matches keeps filled).bind fun _ _ eq ↦
      .ok ⟨congrArg some eq.symm, same.external, same.logging⟩
  · exact (external_matches filled).bind fun _ _ isSame ↦
      .ok ⟨same.model_eq, .some isSame, same.logging⟩
  · exact (logging_matches filled).bind fun _ _ isSame ↦
      .ok ⟨same.model_eq, same.external, .some isSame⟩
  · exact .ok same

/-- Where a tree is a configuration, so is one that is the same but for its strings. -/
theorem entries_matches (keeps : KeepsPlain fills) {entries entries' : List Entry}
    (filled : List.Forall₂ (FilledEntry fills) entries entries') :
    Matches (FileConfig.SameBut (Somewhere fills)) (entries.foldlM entry .empty)
      (entries'.foldlM entry .empty) :=
  .foldlM filled ⟨rfl, .none, .none⟩ fun _ _ _ _ ↦ entry_matches keeps

end

end Decode

end SpanScore
