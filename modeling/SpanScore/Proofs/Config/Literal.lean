import SpanScore.Proofs.Config.Filled
import SpanScore.Proofs.Failure
import SpanScore.Proofs.Toml.Filling

/-!
# Values of variables are taken literally where they suit

Variables are replaced before a configuration is read, so what a value means is decided by the place
where it is put.  Main statement: where references stand in strings and the values suit their
places, the configuration is the one of the text as it stands, with the values in its strings.
-/

namespace SpanScore

open Substitution (Part ReadsAs replace written)
open Toml (Contents Entry Fills FilledEntry HasStringAt HolesInStrings IsStringOf Piece ValuesSuit
  filled unfilled)

/-! ## References as holes -/

namespace Substitution

variable (value? : String → Option String)

/-- The pieces of a part: a hole where it refers to a variable that has a value. -/
def Part.pieces : Part → List Piece
  | .single char => [.char char]
  | .reference name =>
    match value? (String.ofList name) with
    | some value => [.hole name value.toList]
    | none => (written name).map .char

theorem Part.unfilled_pieces (part : Part) : unfilled (part.pieces value?) = part.text := by
  cases part with
  | single char => rfl
  | reference name =>
    rw [Part.pieces, Part.text]
    split
    · simp
    · exact Toml.unfilled_map_char _

theorem Part.filled_pieces (part : Part) : filled (part.pieces value?) = part.replaced value? := by
  cases part with
  | single char => rfl
  | reference name =>
    rw [Part.pieces, Part.replaced]
    cases value? (String.ofList name) with
    | some value => simp
    | none => exact Toml.filled_map_char _

/-- The pieces of some parts. -/
def pieces (parts : List Part) : List Piece :=
  parts.flatMap (Part.pieces value?)

theorem pieces_append (parts parts' : List Part) :
    pieces value? (parts ++ parts') = pieces value? parts ++ pieces value? parts' :=
  List.flatMap_append

theorem pieces_cons (part : Part) (parts : List Part) :
    pieces value? (part :: parts) = part.pieces value? ++ pieces value? parts := rfl

theorem pieces_map_single (chars : List Char) :
    pieces value? (chars.map .single) = chars.map .char := by
  rw [pieces, List.flatMap_map]
  exact List.map_eq_flatMap.symm

variable {text : List Char} {parts : List Part}

theorem ReadsAs.unfilled_eq (reads : ReadsAs text parts) :
    unfilled (pieces value? parts) = text := by
  rw [reads.text_eq, pieces, unfilled, List.flatMap_assoc]
  exact List.flatMap_congr fun part _ ↦ part.unfilled_pieces value?

theorem ReadsAs.filled_eq (reads : ReadsAs text parts) :
    filled (pieces value? parts) = replace value? text := by
  rw [replace_of_readsAs value? reads, pieces, filled, List.flatMap_assoc]
  exact List.flatMap_congr fun part _ ↦ part.filled_pieces value?

/-- Characters that are no dollars are parts of their own. -/
theorem ReadsAs.append {front : List Char} (noDollar : '$' ∉ front)
    (reads : ReadsAs text parts) : ReadsAs (front ++ text) (front.map .single ++ parts) := by
  induction front with
  | nil => exact reads
  | cons char front ih =>
    rw [List.mem_cons, not_or] at noDollar
    refine .single ?_ (ih noDollar.2)
    rintro ⟨name, rest, -, -, text_eq⟩
    exact noDollar.1 (List.cons.inj text_eq).1.symm

/-- Without variables a text stays as it is. -/
theorem replace_of_unset (unset : ∀ name, value? name = none) (text : List Char) :
    replace value? text = text := by
  obtain ⟨parts, reads⟩ := exists_readsAs text
  have same : ∀ part ∈ parts, part.replaced value? = part.text :=
    fun _ _ ↦ replaced_eq_text _ fun _ _ ↦ unset _
  rw [replace_of_readsAs _ reads, List.flatMap_congr same, ← reads.text_eq]

end Substitution

theorem Environment.value?_nil (name : String) : value? [] name = none := by
  rw [value?]
  split <;> rfl

theorem Toml.keepsPlain_fills (pieces : List Piece) : Decode.KeepsPlain (Fills pieces) := by
  rintro region _ _ ⟨_, _, _, _, _, contents, _, _, _, rfl, rfl⟩ plain
  rw [String.toList_ofList] at plain
  rw [Toml.filled_eq_unfilled plain]

namespace FileConfig

theorem ofText_eq_ok_iff {environment : Environment} {text : String} {config : FileConfig} :
    ofText environment text = .ok config ↔
      ∃ entries, Toml.parse? (replace environment.value? text.toList) = some entries ∧
        entries.foldlM Decode.entry .empty = .ok config := by
  rw [ofText]
  dsimp only [Decode.fromText]
  cases Toml.parse? (replace environment.value? text.toList) with
  | none => simp
  | some entries => cases decoded : entries.foldlM Decode.entry .empty <;> simp [decoded]

/-- Values that suit their places are taken literally.  Where the references to variables that have
values stand only in strings, the text with the values in it has the same tree, but that in each
string the references have given way to the values, and where the text as it stands is a
configuration, the one with the values is the same but for these strings. -/
theorem ofText_takes_values_literally {environment : Environment} {text : String}
    {parts : List Part} {entries : List Entry} (reads : ReadsAs text.toList parts)
    (parsed : Toml.parse? text.toList = some entries)
    (holes : HolesInStrings entries (Substitution.pieces environment.value? parts))
    (suit : ValuesSuit entries (Substitution.pieces environment.value? parts)) :
    ∃ entries', Toml.parse? (replace environment.value? text.toList) = some entries' ∧
      List.Forall₂ (FilledEntry (Fills (Substitution.pieces environment.value? parts)))
        entries entries' ∧
      ∀ config, ofText [] text = .ok config → ∃ config', ofText environment text = .ok config' ∧
        config.SameBut (Decode.Somewhere (Fills (Substitution.pieces environment.value? parts)))
          config' := by
  have unfilled_eq := reads.unfilled_eq environment.value?
  rw [← unfilled_eq] at parsed
  obtain ⟨entries', parsed', filled⟩ := Toml.parse?_filled parsed holes suit
  rw [reads.filled_eq] at parsed'
  refine ⟨entries', parsed', filled, fun config decoded ↦ ?_⟩
  obtain ⟨found, foundParsed, decoded⟩ := ofText_eq_ok_iff.1 decoded
  rw [Substitution.replace_of_unset _ Environment.value?_nil, ← unfilled_eq, parsed] at foundParsed
  obtain rfl := Option.some.inj foundParsed
  obtain ⟨config', decoded', same⟩ :=
    Decode.entries_matches (Toml.keepsPlain_fills _) filled decoded
  exact ⟨config', ofText_eq_ok_iff.2 ⟨entries', parsed', decoded'⟩, same⟩

/-! ## A configuration with one variable -/

/-- A configuration whose scorer takes an argument from a variable. -/
def scriptText : String :=
  "external=\x7bcommand=\"python3\",args=[\"$\x7bSCRIPT\x7d\"]\x7d"

/-- This configuration has a tree, with a string where the variable is named. -/
theorem exists_parse?_scriptText : ∃ entries,
    Toml.parse? scriptText.toList = some entries ∧ HasStringAt entries ⟨34, 45⟩ := by
  have found : ((Toml.parse? scriptText.toList).bind fun entries ↦
      entries[0]?.bind fun entry ↦ Toml.stringAt? [0, 0] entry.2) = some ⟨34, 45⟩ := by
    decide +kernel
  obtain ⟨entries, parsed, found⟩ := Option.bind_eq_some_iff.1 found
  obtain ⟨entry, entry_eq, found⟩ := Option.bind_eq_some_iff.1 found
  obtain ⟨text, has⟩ := Toml.exists_hasString_of_stringAt? found
  exact ⟨entries, parsed, text, entry, List.mem_of_getElem? entry_eq, has⟩

theorem ofText_scriptText :
    ofText [] scriptText = .ok ⟨none, some ⟨"python3", ["$\x7bSCRIPT\x7d"], none⟩, none⟩ :=
  eq_ok_of_toOption (by decide +kernel)

def scriptFront : List Char := "external=\x7bcommand=\"python3\",args=[".toList

def scriptBack : List Char := "]\x7d".toList

def scriptParts : List Part :=
  (scriptFront ++ ['"']).map .single ++
    .reference "SCRIPT".toList :: (('"' :: scriptBack).map .single ++ [])

theorem readsAs_scriptText : ReadsAs scriptText.toList scriptParts := by
  have text_eq : scriptText.toList =
      (scriptFront ++ ['"']) ++ (written "SCRIPT".toList ++ ('"' :: scriptBack ++ [])) := by
    decide +kernel
  rw [text_eq]
  have behind : ReadsAs ('"' :: scriptBack ++ []) _ := .append (by decide +kernel) .nil
  exact .append (by decide +kernel) (.reference (by decide +kernel) (by decide +kernel) behind)

def scriptPieces (value : String) : List Piece :=
  Substitution.pieces (Environment.value? [("SCRIPT", value)]) scriptParts

theorem scriptPieces_eq (value : String) : scriptPieces value =
    scriptFront.map .char ++
      (['"'].map .char ++ .hole "SCRIPT".toList value.toList :: ['"'].map .char) ++
      scriptBack.map .char := by
  have hole : Part.pieces (Environment.value? [("SCRIPT", value)]) (.reference "SCRIPT".toList) =
      [.hole "SCRIPT".toList value.toList] := rfl
  rw [scriptPieces, scriptParts, Substitution.pieces_append, Substitution.pieces_cons,
    List.append_nil, Substitution.pieces_map_single, Substitution.pieces_map_single, hole]
  simp

theorem holesInStrings_scriptPieces {entries : List Entry} (has : HasStringAt entries ⟨34, 45⟩)
    (value : String) : HolesInStrings entries (scriptPieces value) := by
  rw [scriptPieces_eq]
  refine .single ?_
  have front_eq : Toml.byteLength scriptFront = 34 := by decide +kernel
  have string_eq : Toml.byteLength ('"' :: (written "SCRIPT".toList ++ ['"'])) = 11 := by
    decide +kernel
  simp only [Toml.regionOf, Toml.unfilled_append, Toml.unfilled_map_char, Toml.unfilled_hole,
    List.singleton_append, front_eq, string_eq]
  exact has

theorem valuesSuit_scriptPieces (entries : List Entry) {value : String}
    (ordinary : value.toList.all Toml.isOrdinary = true) :
    ValuesSuit entries (scriptPieces value) := by
  refine .of_isOrdinary (fun quote isQuote ↦ ?_) fun name value' mem ↦ ?_
  · rw [scriptPieces, readsAs_scriptText.unfilled_eq _]
    obtain rfl | rfl := isQuote <;> decide +kernel
  · obtain ⟨-, rfl⟩ : name = "SCRIPT".toList ∧ value' = value.toList := by
      simpa [scriptPieces_eq] using mem
    exact ordinary

/-- A value that closes brackets and braces stays in its string. -/
theorem ofText_takes_values_literally_at_brackets :
    ∃ config', ofText [("SCRIPT", "a]\x7d#=b")] scriptText = .ok config' ∧
      SameBut (Decode.Somewhere (Fills (scriptPieces "a]\x7d#=b")))
        ⟨none, some ⟨"python3", ["$\x7bSCRIPT\x7d"], none⟩, none⟩ config' ∧
      config' = ⟨none, some ⟨"python3", ["a]\x7d#=b"], none⟩, none⟩ := by
  obtain ⟨entries, parsed, has⟩ := exists_parse?_scriptText
  obtain ⟨_, -, -, literally⟩ := ofText_takes_values_literally readsAs_scriptText parsed
    (holesInStrings_scriptPieces has "a]\x7d#=b") (valuesSuit_scriptPieces entries (by decide))
  obtain ⟨config', decoded, same⟩ := literally _ ofText_scriptText
  refine ⟨config', decoded, same, ?_⟩
  exact Except.ok.inj (decoded.symm.trans (eq_ok_of_toOption (by decide +kernel)))

/-- A value with a quote ends its string, so the configuration is none any more, or one with other
fields. -/
theorem exists_ofText_not_literal :
    ∃ value value' : String,
      (∃ entries, Toml.parse? scriptText.toList = some entries ∧
        HolesInStrings entries (scriptPieces value) ∧
        HolesInStrings entries (scriptPieces value')) ∧
      ofText [] scriptText = .ok ⟨none, some ⟨"python3", ["$\x7bSCRIPT\x7d"], none⟩, none⟩ ∧
      (∀ config, ofText [("SCRIPT", value)] scriptText ≠ .ok config) ∧
      ofText [("SCRIPT", value')] scriptText =
        .ok ⟨none, some ⟨"python3", ["a"], some 7⟩, none⟩ := by
  obtain ⟨entries, parsed, has⟩ := exists_parse?_scriptText
  refine ⟨"a\"b", "a\"],timeout_seconds=7\x7d#", ⟨entries, parsed,
    holesInStrings_scriptPieces has _, holesInStrings_scriptPieces has _⟩, ofText_scriptText,
    fun config decoded ↦ ?_, eq_ok_of_toOption (by decide +kernel)⟩
  have nothing : (ofText [("SCRIPT", "a\"b")] scriptText).toOption = none := by decide +kernel
  rw [decoded] at nothing
  cases nothing

end FileConfig

end SpanScore
