import CodeAtlas.Model.Kind
import Mathlib.Data.List.TakeWhile

/-!
# Labels and their parts

A label is one or more parts joined by colons, and every text is one.  The kind
of a node is found in the parts of its labels, one after the other.  So it
depends neither on how parts are grouped into labels nor on blanks around them,
nor on parts that say nothing.
-/

namespace CodeAtlas

/-! ## Splitting and trimming -/

namespace Text

theorem splitChars_eq_splitOn (separator : Char) (chars : List Char) :
    splitChars separator chars = chars.splitOn separator := by
  induction chars with
  | nil => rfl
  | cons c rest ih =>
    rw [splitChars, List.splitOn_cons_eq_if_modifyHead, ih]
    rcases List.exists_cons_of_ne_nil (List.splitOn_ne_nil separator rest) with
      ⟨part, parts, split⟩
    by_cases isSeparator : c = separator <;> simp [isSeparator, split]

theorem not_mem_of_mem_splitChars {separator : Char} {chars part : List Char}
    (mem : part ∈ splitChars separator chars) : separator ∉ part := by
  induction chars generalizing part with
  | nil =>
    rw [List.mem_singleton.mp mem]
    simp
  | cons c rest ih =>
    rw [splitChars] at mem
    split at mem
    · rcases List.mem_cons.mp mem with rfl | later
      · simp
      · exact ih later
    · next differs =>
        cases split : splitChars separator rest with
        | nil =>
          rw [split, List.mem_singleton] at mem
          simpa [mem] using Ne.symm differs
        | cons first parts =>
          rw [split] at mem
          rcases List.mem_cons.mp mem with rfl | later
          · have clean := ih (split ▸ List.mem_cons_self)
            simp [Ne.symm differs, clean]
          · exact ih (split ▸ List.mem_cons_of_mem _ later)

/-- Blanks at the ends are trimmed, however many. -/
theorem trimChars_padded {before after : List Char} (blankBefore : ∀ c ∈ before, isBlank c = true)
    (blankAfter : ∀ c ∈ after, isBlank c = true) (chars : List Char) :
    trimChars (before ++ chars ++ after) = trimChars chars := by
  rw [trimChars, trimChars, List.append_assoc, List.dropWhile_append_of_pos blankBefore,
    List.dropWhile_append]
  split
  · next empty =>
      rw [List.isEmpty_iff.mp empty, List.dropWhile_eq_nil_iff.mpr blankAfter]
  · rw [List.reverse_append, List.dropWhile_append_of_pos]
    intro c mem
    exact blankAfter c (List.mem_reverse.mp mem)

end Text

/-! ## Parts -/

/-- A part of a label. -/
structure LabelPart where
  chars : List Char
  colonFree : ':' ∉ chars

namespace LabelPart

/-- What a part says, without the blanks around it. -/
def name (part : LabelPart) : String :=
  String.ofList (Text.trimChars part.chars)

/-- The kind that a part names. -/
def kind? (part : LabelPart) : Option NodeKind :=
  NodeKind.ofLabel? part.name

/-- A part that names no kind and no namespace that matters. -/
def Idle (part : LabelPart) : Prop :=
  part.kind? = none ∧ part.name ≠ "Arch"

/-- One part is the other one with blanks around it. -/
def Pads (padded part : LabelPart) : Prop :=
  ∃ before after, (∀ c ∈ before, Text.isBlank c = true) ∧ (∀ c ∈ after, Text.isBlank c = true) ∧
    padded.chars = before ++ part.chars ++ after

theorem Pads.refl (part : LabelPart) : part.Pads part :=
  ⟨[], [], by simp, by simp, by simp⟩

theorem Pads.name {padded part : LabelPart} (pads : padded.Pads part) :
    padded.name = part.name := by
  rcases pads with ⟨before, after, blankBefore, blankAfter, same⟩
  rw [LabelPart.name, LabelPart.name, same, Text.trimChars_padded blankBefore blankAfter]

/-- The second list is the first one with blanks around its parts and idle parts
between them. -/
inductive Dressed : List LabelPart → List LabelPart → Prop where
  | nil : Dressed [] []
  | pad {part padded : LabelPart} {parts others : List LabelPart} (pads : padded.Pads part)
      (rest : Dressed parts others) : Dressed (part :: parts) (padded :: others)
  | insert {part : LabelPart} {parts others : List LabelPart} (idle : part.Idle)
      (rest : Dressed parts others) : Dressed parts (part :: others)

theorem Dressed.refl (parts : List LabelPart) : Dressed parts parts := by
  induction parts with
  | nil => exact .nil
  | cons part parts ih => exact .pad (.refl part) ih

theorem Dressed.findSome?_kind? {parts others : List LabelPart} (dressed : Dressed parts others) :
    others.findSome? kind? = parts.findSome? kind? := by
  induction dressed with
  | nil => rfl
  | pad pads _ ih =>
    rw [List.findSome?_cons, List.findSome?_cons, ih, kind?, pads.name, kind?]
  | insert idle _ ih =>
    rw [List.findSome?_cons, idle.1]
    exact ih

theorem Dressed.mem_name_iff {parts others : List LabelPart} (dressed : Dressed parts others) :
    "Arch" ∈ others.map LabelPart.name ↔ "Arch" ∈ parts.map LabelPart.name := by
  induction dressed with
  | nil => rfl
  | pad pads _ ih =>
    rw [List.map_cons, List.map_cons, List.mem_cons, List.mem_cons, ih, pads.name]
  | insert idle _ ih =>
    rw [List.map_cons, List.mem_cons, ih]
    exact or_iff_right idle.2.symm

end LabelPart

/-- A label by its parts. -/
structure NodeLabel where
  parts : List LabelPart
  nonempty : parts ≠ []

namespace NodeLabel

/-- The parts with colons between them. -/
def text (label : NodeLabel) : String :=
  String.ofList ([':'].intercalate (label.parts.map LabelPart.chars))

/-- Every text is a label. -/
theorem exists_text (text : String) : ∃ label : NodeLabel, label.text = text := by
  have colonFree : ∀ part ∈ Text.splitChars ':' text.toList, ':' ∉ part :=
    fun _ mem => Text.not_mem_of_mem_splitChars mem
  refine ⟨⟨(Text.splitChars ':' text.toList).pmap LabelPart.mk colonFree, ?_⟩, ?_⟩
  · simp [List.pmap_eq_nil_iff, Text.splitChars_eq_splitOn]
  · simp [NodeLabel.text, List.map_pmap, Text.splitChars_eq_splitOn]

theorem splitChars_text (label : NodeLabel) :
    Text.splitChars ':' label.text.toList = label.parts.map LabelPart.chars := by
  rw [text, String.toList_ofList, Text.splitChars_eq_splitOn, List.splitOn_intercalate]
  · simp only [List.mem_map]
    rintro _ ⟨part, _, rfl⟩
    exact part.colonFree
  · simpa using label.nonempty

theorem labelParts_text (label : NodeLabel) :
    NodeKind.labelParts label.text = label.parts.map LabelPart.name := by
  rw [NodeKind.labelParts, splitChars_text, List.map_map]
  rfl

/-- The parts of labels one after the other. -/
def allParts (labels : List NodeLabel) : List LabelPart :=
  labels.flatMap parts

theorem flatMap_labelParts (labels : List NodeLabel) :
    (labels.map text).flatMap NodeKind.labelParts = (allParts labels).map LabelPart.name := by
  rw [allParts, List.map_flatMap, List.flatMap_map]
  simp only [labelParts_text]

end NodeLabel

/-! ## Kinds -/

namespace NodeKind

/-- The kind that the parts of labels stand for. -/
def ofParts (parts : List LabelPart) : NodeKind :=
  match parts.findSome? LabelPart.kind? with
  | none => unknown
  | some kind =>
    if kind = repository ∧ "Arch" ∈ parts.map LabelPart.name then dataRepository else kind

theorem ofLabels_text (labels : List NodeLabel) :
    ofLabels (labels.map NodeLabel.text) = ofParts (NodeLabel.allParts labels) := by
  have kinds : ((NodeLabel.allParts labels).map LabelPart.name).findSome? ofLabel? =
      (NodeLabel.allParts labels).findSome? LabelPart.kind? := by
    rw [List.findSome?_map]
    rfl
  rw [ofLabels, ofParts, NodeLabel.flatMap_labelParts, kinds]
  cases (NodeLabel.allParts labels).findSome? LabelPart.kind? with
  | none => rfl
  | some kind => cases kind <;> simp

/-- Blanks around parts and idle parts between them do not show. -/
theorem ofParts_dressed {parts others : List LabelPart}
    (dressed : LabelPart.Dressed parts others) : ofParts others = ofParts parts := by
  rw [ofParts, ofParts, dressed.findSome?_kind?]
  simp only [dressed.mem_name_iff]

theorem ofParts_eq_unknown {parts : List LabelPart}
    (nameless : ∀ part ∈ parts, part.kind? = none) : ofParts parts = unknown := by
  rw [ofParts, List.findSome?_eq_none_iff.mpr nameless]

/-- The first part that names a kind decides. -/
theorem ofParts_of_first {before after : List LabelPart} {part : LabelPart} {kind : NodeKind}
    (nameless : ∀ other ∈ before, other.kind? = none) (named : part.kind? = some kind) :
    ofParts (before ++ part :: after) =
      if kind = repository ∧ "Arch" ∈ (before ++ part :: after).map LabelPart.name then
        dataRepository
      else kind := by
  have found : (before ++ part :: after).findSome? LabelPart.kind? = some kind := by
    rw [List.findSome?_append, List.findSome?_eq_none_iff.mpr nameless, List.findSome?_cons, named]
    rfl
  rw [ofParts, found]

theorem labelParts_intercalate {texts : List String} (nonempty : texts ≠ []) :
    labelParts (":".intercalate texts) = texts.flatMap labelParts := by
  induction texts with
  | nil => exact absurd rfl nonempty
  | cons text texts ih =>
    cases texts with
    | nil => simp
    | cons next texts =>
      have later := ih (by simp)
      rw [List.flatMap_cons, ← later, String.intercalate_cons_cons]
      simp only [labelParts, Text.splitChars_eq_splitOn, String.toList_append, List.append_assoc]
      rw [← List.map_append, ← List.splitOn_append_cons_self]
      rfl

/-- One label that joins all of them stands for the same. -/
theorem ofLabels_intercalate (texts : List String) :
    ofLabels [":".intercalate texts] = ofLabels texts := by
  cases texts with
  | nil => decide +kernel
  | cons text texts =>
    simp only [ofLabels, List.flatMap_cons, List.flatMap_nil, List.append_nil,
      labelParts_intercalate (List.cons_ne_nil text texts)]

/-- The kind of labels depends on their parts only, not on how these are grouped
into labels, and neither on blanks around parts nor on idle parts.  It is the one
that the first part with a kind names, where a repository is a data repository
exactly if some part says so. -/
theorem ofLabels_by_parts :
    (∀ text : String, ∃ label : NodeLabel, label.text = text) ∧
    (∀ texts : List String, ofLabels [":".intercalate texts] = ofLabels texts) ∧
    (∀ labels others : List NodeLabel,
      LabelPart.Dressed (NodeLabel.allParts labels) (NodeLabel.allParts others) →
        ofLabels (others.map NodeLabel.text) = ofLabels (labels.map NodeLabel.text)) ∧
    ∀ labels : List NodeLabel,
      ((∀ part ∈ NodeLabel.allParts labels, part.kind? = none) →
        ofLabels (labels.map NodeLabel.text) = unknown) ∧
      ∀ before part after kind, NodeLabel.allParts labels = before ++ part :: after →
        (∀ other ∈ before, other.kind? = none) → part.kind? = some kind →
          ofLabels (labels.map NodeLabel.text) =
            if kind = repository ∧
                "Arch" ∈ (NodeLabel.allParts labels).map LabelPart.name then
              dataRepository
            else kind := by
  refine ⟨NodeLabel.exists_text, ofLabels_intercalate, ?_, ?_⟩
  · intro labels others dressed
    rw [ofLabels_text, ofLabels_text, ofParts_dressed dressed]
  · intro labels
    rw [ofLabels_text]
    constructor
    · exact ofParts_eq_unknown
    · intro before part after kind split nameless named
      rw [split]
      exact ofParts_of_first nameless named

/-- A repository among architecture labels, grouped in another way, with blanks
and with parts that say nothing. -/
theorem ofLabels_by_parts_sample :
    ∃ labels others : List NodeLabel,
      labels.map NodeLabel.text = ["Java:Repository", "Arch"] ∧
      others.map NodeLabel.text = ["\u3000Java ", ":Shop:\tRepository:Arch"] ∧
      LabelPart.Dressed (NodeLabel.allParts labels) (NodeLabel.allParts others) ∧
      ofLabels ["\u3000Java ", ":Shop:\tRepository:Arch"] =
        ofLabels ["Java:Repository", "Arch"] ∧
      ofLabels ["Java:Repository", "Arch"] = dataRepository := by
  let java : LabelPart := ⟨"Java".toList, by decide +kernel⟩
  let repository : LabelPart := ⟨"Repository".toList, by decide +kernel⟩
  let arch : LabelPart := ⟨"Arch".toList, by decide +kernel⟩
  let padded : LabelPart := ⟨"\u3000Java ".toList, by decide +kernel⟩
  let empty : LabelPart := ⟨[], by decide⟩
  let shop : LabelPart := ⟨"Shop".toList, by decide +kernel⟩
  let indented : LabelPart := ⟨"\tRepository".toList, by decide +kernel⟩
  let labels : List NodeLabel := [⟨[java, repository], by simp⟩, ⟨[arch], by simp⟩]
  let others : List NodeLabel := [⟨[padded], by simp⟩, ⟨[empty, shop, indented, arch], by simp⟩]
  have texts : labels.map NodeLabel.text = ["Java:Repository", "Arch"] := by decide +kernel
  have otherTexts : others.map NodeLabel.text = ["\u3000Java ", ":Shop:\tRepository:Arch"] := by
    decide +kernel
  have dressed : LabelPart.Dressed (NodeLabel.allParts labels) (NodeLabel.allParts others) := by
    apply LabelPart.Dressed.pad ⟨['\u3000'], [' '], List.all_eq_true.mp (by decide),
      List.all_eq_true.mp (by decide), by decide +kernel⟩
    apply LabelPart.Dressed.insert ⟨by decide +kernel, by decide +kernel⟩
    apply LabelPart.Dressed.insert ⟨by decide +kernel, by decide +kernel⟩
    apply LabelPart.Dressed.pad ⟨['\t'], [], List.all_eq_true.mp (by decide), by simp,
      by decide +kernel⟩
    exact .refl [arch]
  have same := ofLabels_by_parts.2.2.1 labels others dressed
  have found := (ofLabels_by_parts.2.2.2 labels).2 [java] repository [arch] .repository rfl
    (by decide +kernel) (by decide +kernel)
  rw [texts, otherTexts] at same
  rw [texts, if_pos (by decide +kernel)] at found
  exact ⟨labels, others, texts, otherTexts, dressed, same, found⟩

end NodeKind

end CodeAtlas
