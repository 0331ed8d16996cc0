import CodeAtlas.Json.Schema
import CodeAtlas.Proofs.Json.Words
import Mathlib.Data.List.Nodup

/-!
# Documents that read back

A decoder reads a text as a value if it answers with the value wherever the text
stands, with any blanks before it and anything after it that does not go on like
a number.  Lists and records are read as what their parts are read as, one round
of the decoder's loop for each part.  A part that is refused makes the whole be
refused.
-/

namespace CodeAtlas.Text.Piece

@[simp]
theorem ofString_append (a b : String) : ofString (a ++ b) = ofString a ++ ofString b := by
  simp [ofString]

end CodeAtlas.Text.Piece

namespace CodeAtlas.Single

/-- A number is finite unless it is infinite or no number. -/
theorem isFinite_eq (x : Float32) : x.isFinite = !(x.isNaN || x.isInf) := by
  unfold Float32.isFinite Float32.isNaN Float32.isInf
  unfold Float32.Model.isFinite Float32.Model.isNaN Float32.Model.isInf
  cases x.toModel.unpack <;> rfl

end CodeAtlas.Single

namespace CodeAtlas.Json

open CodeAtlas.Text (Piece)

variable {α β : Type} {blanks : List Piece}

namespace Document

theorem indented_null (level : ℕ) : null.indented level = "null" := by
  simp [indented, scalar]

theorem indented_boolean (level : ℕ) (value : Bool) :
    (boolean value).indented level = if value then "true" else "false" := by
  simp [indented, scalar]

theorem indented_string (level : ℕ) (text : String) :
    (string text).indented level = writtenString text := by
  simp [indented, scalar]

/-- Numbers that are not finite have no digits. -/
theorem indented_single (level : ℕ) (x : Float32) :
    (single x).indented level = if x.isFinite then singleStyle.single x else "null" := by
  simp only [indented, scalar, Single.isFinite_eq]
  cases x.isNaN || x.isInf <;> rfl

end Document

/-- The text starts a value that is neither `null` nor the end of a list. -/
def Opens (text : String) : Prop :=
  ∃ piece tail, Piece.ofString text = piece :: tail ∧ isSpace piece = false ∧
    piece ≠ .char 'n' ∧ piece ≠ .char ']'

theorem opens_string (text : String) (level : ℕ) :
    Opens ((Document.string text).indented level) := by
  rw [Document.indented_string]
  exact ⟨_, _, ofString_writtenString text, by decide⟩

namespace Decoder

/-- The decoder reads the text as the value, wherever it stands. -/
def Reads (decoder : Decoder α) (room : Room) (text : String) (value : α) : Prop :=
  ∀ blanks rest, Blank blanks → Stops rest →
    decoder room (blanks ++ (Piece.ofString text ++ rest)) = .ok (value, rest)

/-- The decoder refuses the text, wherever it stands. -/
def Refuses (decoder : Decoder α) (room : Room) (text : String) : Prop :=
  ∀ blanks rest, Blank blanks →
    ∃ error, decoder room (blanks ++ (Piece.ofString text ++ rest)) = .error error

variable {decoder : Decoder α} {room : Room} {text : String} {value : α}

theorem Reads.map (reads : decoder.Reads room text value) (f : α → β) :
    (decoder.map f).Reads room text (f value) := by
  intro blanks rest blank stops
  rw [Decoder.map, reads blanks rest blank stops]
  rfl

theorem run_of_reads (reads : decoder.Reads ⟨127, (Piece.ofString text).length + 1⟩ text value) :
    decoder.run (Piece.ofString text) = .ok value := by
  have read := reads [] [] blank_nil trivial
  rw [List.nil_append, List.append_nil] at read
  rw [run, read]
  rfl

theorem run_of_refuses (refuses : decoder.Refuses ⟨127, (Piece.ofString text).length + 1⟩ text) :
    ∃ error, decoder.run (Piece.ofString text) = .error error := by
  rcases refuses [] [] blank_nil with ⟨error, refused⟩
  rw [List.nil_append, List.append_nil] at refused
  exact ⟨error, by rw [run, refused]; rfl⟩

/-! ## Single values -/

theorem reads_stringAs (expected : String) (room : Room) (level : ℕ) (text : String) :
    (stringAs expected).Reads room ((Document.string text).indented level) text := by
  intro blanks rest blank _
  rw [stringAs, Document.indented_string, skipSpace_writtenString blank]
  exact string_written text rest

theorem reads_boolean (room : Room) (level : ℕ) (value : Bool) :
    boolean.Reads room ((Document.boolean value).indented level) value := by
  intro blanks rest blank _
  rw [boolean, skipSpace_append blank, Document.indented_boolean]
  cases value <;> rfl

/-- The number reads back from its digits alone. -/
def ReadsBack (x : Float32) : Prop :=
  (single ⟨0, 0⟩ (Piece.ofString (singleStyle.single x))).toOption = some (x, [])

instance (x : Float32) : Decidable (ReadsBack x) :=
  inferInstanceAs (Decidable (_ = _))

/-- A finite number that reads back reads back wherever it stands. -/
theorem reads_single {x : Float32} (finite : x.isFinite = true) (back : ReadsBack x)
    (room : Room) (level : ℕ) :
    single.Reads room ((Document.single x).indented level) x := by
  intro blanks rest blank stops
  have read : single ⟨0, 0⟩ (Piece.ofString (singleStyle.single x)) = .ok (x, []) := by
    unfold ReadsBack at back
    cases reading : single ⟨0, 0⟩ (Piece.ofString (singleStyle.single x)) <;>
      simp_all [Except.toOption]
  simp only [single, Decoder.map, bind_eq_ok, Except.ok.injEq, Prod.mk.injEq] at read ⊢
  rcases read with ⟨⟨number, left⟩, read, rfl, rfl⟩
  rw [Document.indented_single, if_pos finite]
  exact ⟨_, numberAs_append read blank stops, rfl, rfl⟩

/-- A number that is not finite is not read from what is written for it. -/
theorem single_refuses {x : Float32} (notFinite : x.isFinite = false) (room : Room) (level : ℕ) :
    single.Refuses room ((Document.single x).indented level) := by
  intro blanks rest blank
  rw [Document.indented_single, if_neg (by simp [notFinite]), single, Decoder.map, numberAs,
    skipSpace_append blank]
  exact ⟨_, rfl⟩

theorem optional_reads_null (decoder : Decoder α) (room : Room) (level : ℕ) :
    (optional decoder).Reads room (Document.null.indented level) none := by
  intro blanks rest blank _
  rw [optional, skipSpace_append blank, Document.indented_null]
  rfl

theorem Reads.optional (reads : decoder.Reads room text value) (opens : Opens text) :
    (optional decoder).Reads room text (some value) := by
  intro blanks rest blank stops
  rcases opens with ⟨piece, tail, isText, solid, notNull, -⟩
  have read := reads.map some [] rest blank_nil stops
  rw [isText, List.nil_append, List.cons_append] at read
  rw [Decoder.optional, skipSpace_append blank, isText, List.cons_append, skipSpace_cons solid]
  split
  case h_1 empty => cases empty
  case h_2 null => exact absurd (List.cons.inj null).1 notNull
  case h_3 => exact read

end Decoder

theorem Variant.reads_bare {variants : List (Variant α)} {name : String} {value : α}
    (known : variants.find? (·.name == name) = some ⟨name, .bare value⟩) (room : Room)
    (level : ℕ) :
    (Variant.decoder variants).Reads room ((Document.string name).indented level) value := by
  intro blanks rest blank _
  rw [Variant.decoder, Document.indented_string, skipSpace_writtenString blank]
  simp only [string_written, ok_bind, Variant.find, known]

/-! ## Parts -/

/-- What stands before a part: a comma, unless it is the first one. -/
def lead : Bool → List Piece
  | true => []
  | false => [.char ',']

/-- The parts of a list or record one after the other; `first` tells that none
stands before them. -/
def chained (first : Bool) : List String → List Piece
  | [] => []
  | part :: parts => lead first ++ (Piece.ofString part ++ chained false parts)

theorem ofString_intercalate (parts : List String) :
    Piece.ofString (String.intercalate "," parts) = chained true parts := by
  induction parts with
  | nil => rfl
  | cons part parts ih =>
    cases parts with
    | nil => simp [chained, lead]
    | cons next parts =>
      rw [String.intercalate_cons_cons, Piece.ofString_append, Piece.ofString_append,
        ih, List.append_assoc]
      rfl

/-- Every part but the first one has its comma. -/
theorem length_le_chained (first : Bool) (parts : List String) :
    parts.length ≤ (chained first parts).length + first.toNat := by
  induction parts generalizing first with
  | nil => simp
  | cons part parts ih =>
    have others := ih false
    cases first <;> simp [chained, lead] at others ⊢ <;> omega

theorem length_part_le_chained {part : String} {parts : List String} (among : part ∈ parts)
    (first : Bool) : (Piece.ofString part).length ≤ (chained first parts).length := by
  induction parts generalizing first with
  | nil => cases among
  | cons other parts ih =>
    simp only [chained, List.length_append]
    rcases List.mem_cons.mp among with rfl | among
    · omega
    · have later := ih among false
      omega

theorem stops_blank_append {blanks rest : List Piece} (blank : Blank blanks) (stops : Stops rest) :
    Stops (blanks ++ rest) := by
  cases blanks with
  | nil => exact stops
  | cons piece blanks =>
    have isBlank := blank piece List.mem_cons_self
    cases piece with
    | stray byte => cases isBlank
    | char c =>
      simp only [isSpace, Bool.or_eq_true, decide_eq_true_eq] at isBlank
      rcases isBlank with ((rfl | rfl) | rfl) | rfl <;> simp [Stops, digit?]

theorem stops_bracket (rest : List Piece) : Stops (.char ']' :: rest) := by
  simp [Stops, digit?]

theorem stops_brace (rest : List Piece) : Stops (.char '\x7d' :: rest) := by
  simp [Stops, digit?]

/-- What follows a part does not go on like a number. -/
theorem stops_chained (parts : List String) {rest : List Piece} (stops : Stops rest) :
    Stops (chained false parts ++ rest) := by
  cases parts with
  | nil => exact stops
  | cons part parts => simp [chained, lead, Stops, digit?]

/-! ## Lists -/

/-- After a comma an item has to follow. -/
theorem nextItem_comma (text : List Piece) :
    nextItem false (.char ',' :: text) =
      match skipSpace text with
      | [] => .error .ended
      | .char ']' :: _ => .error .malformed
      | rest => .ok (some rest) :=
  rfl

theorem nextItem_lead (first : Bool) (blank : Blank blanks) {text : String} (opens : Opens text)
    (rest : List Piece) :
    nextItem first (lead first ++ (blanks ++ (Piece.ofString text ++ rest))) =
      .ok (some (Piece.ofString text ++ rest)) := by
  rcases opens with ⟨piece, tail, isText, solid, -, notEnd⟩
  have start : skipSpace (blanks ++ (Piece.ofString text ++ rest)) = piece :: (tail ++ rest) := by
    rw [skipSpace_append blank, isText, List.cons_append, skipSpace_cons solid]
  have whole : piece :: (tail ++ rest) = Piece.ofString text ++ rest := by
    rw [isText, List.cons_append]
  cases first with
  | true =>
    simp only [nextItem, lead, List.nil_append, start]
    rw [← whole]
    rfl
  | false =>
    simp only [lead, List.singleton_append, nextItem_comma, start]
    rw [← whole]
    split
    case h_1 empty => cases empty
    case h_2 ended => exact absurd (List.cons.inj ended).1 notEnd
    case h_3 => rfl

theorem nextItem_end (blank : Blank blanks) (first : Bool)
    (rest : List Piece) : nextItem first (blanks ++ .char ']' :: rest) = .ok none := by
  rw [nextItem, skipSpace_append blank]
  rfl

theorem closeList_end (blank : Blank blanks) (rest : List Piece) :
    closeList (blanks ++ .char ']' :: rest) = .ok rest := by
  rw [closeList, skipSpace_append blank]
  rfl

/-- One round reads one item, whether it is the first one or follows a comma. -/
theorem items_lead {item : Decoder α} {room : Room} {text : String} {value : α}
    (reads : item.Reads room text value) (opens : Opens text) (blank : Blank blanks) (rounds : ℕ)
    (first : Bool) {rest : List Piece} (stops : Stops rest) :
    items (item room) (rounds + 1) first
        (lead first ++ (blanks ++ (Piece.ofString text ++ rest))) =
      (items (item room) rounds false rest).map fun read => (value :: read.1, read.2) := by
  have read := reads [] rest blank_nil stops
  rw [List.nil_append] at read
  rw [items, nextItem_lead first blank opens, ok_bind]
  simp only [read, ok_bind]
  cases items (item room) rounds false rest with
  | error fault => rfl
  | ok read => rfl

/-- The items of a list up to its end. -/
theorem items_chained {item : Decoder α} {write : α → Document} {room : Room} {level : ℕ}
    {values : List α}
    (reads : ∀ value ∈ values, item.Reads room ((write value).indented level) value ∧
      Opens ((write value).indented level))
    {rounds : ℕ} (enough : values.length < rounds) (first : Bool) {blanks : List Piece}
    (blank : Blank blanks) (rest : List Piece) :
    items (item room) rounds first
        (chained first (Document.indentedItems level (values.map write)) ++
          (blanks ++ .char ']' :: rest)) =
      .ok (values, rest) := by
  induction values generalizing rounds first with
  | nil =>
    cases rounds with
    | zero => simp at enough
    | succ rounds =>
      rw [items, List.map_nil, Document.indentedItems, chained, List.nil_append,
        nextItem_end blank, ok_bind]
      simp only [closeList_end blank, ok_bind]
  | cons value values ih =>
    cases rounds with
    | zero => simp at enough
    | succ rounds =>
      rcases List.forall_mem_cons.mp reads with ⟨⟨readsValue, opens⟩, readsOthers⟩
      have stops : Stops (chained false (Document.indentedItems level (values.map write)) ++
          (blanks ++ .char ']' :: rest)) :=
        stops_chained _ (stops_blank_append blank (stops_bracket rest))
      have enoughLeft : values.length < rounds := by simpa using enough
      simp only [List.map_cons, Document.indentedItems, chained, Piece.ofString_append,
        List.append_assoc]
      rw [items_lead readsValue opens (blank_lineBreak level) rounds first stops,
        ih readsOthers enoughLeft false]
      rfl

theorem Document.indentedItems_eq_map (level : ℕ) (items : List Document) :
    indentedItems level items = items.map fun item => lineBreak level ++ item.indented level := by
  induction items with
  | nil => rw [indentedItems, List.map_nil]
  | cons item items ih => rw [indentedItems, ih, List.map_cons]

/-- A list is written between brackets, its items one after the other. -/
theorem Document.ofString_list (level : ℕ) (items : List Document) :
    ∃ blanks, Blank blanks ∧
      Piece.ofString ((Document.list items).indented level) =
        .char '[' ::
          (chained true (indentedItems (level + 1) items) ++ (blanks ++ [.char ']'])) := by
  cases items with
  | nil => exact ⟨[], blank_nil, by simp [indented, indentedItems, chained, Piece.ofString]⟩
  | cons item items =>
    exact ⟨_, blank_lineBreak level, by
      rw [indented, Piece.ofString_append, Piece.ofString_append, Piece.ofString_append,
        ofString_intercalate]
      simp [Piece.ofString]⟩

/-- A written list reads back if its items do. -/
theorem Decoder.reads_list {item : Decoder α} {write : α → Document} {depth rounds level : ℕ}
    {values : List α}
    (reads : ∀ value ∈ values,
      item.Reads ⟨depth, rounds⟩ ((write value).indented (level + 1)) value ∧
        Opens ((write value).indented (level + 1)))
    (enough : values.length < rounds) :
    (Decoder.list item).Reads ⟨depth + 1, rounds⟩
      ((Document.list (values.map write)).indented level) values := by
  intro blanks rest blank _
  rcases Document.ofString_list level (values.map write) with ⟨closing, closingBlank, written⟩
  rw [Decoder.list, skipSpace_append blank, written, List.cons_append, skipSpace_cons rfl,
    List.append_assoc, List.append_assoc, List.singleton_append]
  exact items_chained reads enough true closingBlank rest

/-! ## Records -/

theorem nextName_lead (first : Bool) (blank : Blank blanks) (name : String) (rest : List Piece) :
    nextName first (lead first ++ (blanks ++ (Piece.ofString (writtenString name) ++ rest))) =
      .ok (some (name, rest)) := by
  cases first with
  | true =>
    rw [lead, List.nil_append, nextName, skipSpace_writtenString blank]
    simp [string_written]
  | false =>
    rw [lead, List.singleton_append, nextName, skipSpace_cons rfl]
    simp [skipSpace_writtenString blank, string_written]

theorem nextName_end (blank : Blank blanks) (first : Bool)
    (rest : List Piece) : nextName first (blanks ++ .char '\x7d' :: rest) = .ok none := by
  rw [nextName, skipSpace_append blank]
  rfl

theorem closeObject_end (blank : Blank blanks) (rest : List Piece) :
    closeObject (blanks ++ .char '\x7d' :: rest) = .ok rest := by
  rw [closeObject, skipSpace_append blank]
  rfl

/-- One round reads one field. -/
theorem fields_lead {σ : Type} (field : σ → String → List Piece → Except Error (σ × List Piece))
    (rounds : ℕ) (first : Bool) (state : σ) (blank : Blank blanks) (name : String)
    (rest : List Piece) :
    fields field (rounds + 1) first state
        (lead first ++ (blanks ++ (Piece.ofString (writtenString name) ++ rest))) =
      field state name rest >>= fun read => fields field rounds false read.1 read.2 := by
  rw [fields, nextName_lead first blank name rest, ok_bind]

theorem Document.indentedFields_eq_map (level : ℕ) (entries : List (String × Document)) :
    indentedFields level entries = entries.map fun entry =>
      lineBreak level ++ writtenString entry.1 ++ ": " ++ entry.2.indented level := by
  induction entries with
  | nil => rw [indentedFields, List.map_nil]
  | cons entry entries ih =>
    rw [indentedFields, ih, List.map_cons]

/-- A record is written between braces, its entries one after the other. -/
theorem Document.ofString_record (level : ℕ) (entries : List (String × Document)) :
    ∃ blanks, Blank blanks ∧
      Piece.ofString ((Document.record entries).indented level) =
        .char '\x7b' ::
          (chained true (indentedFields (level + 1) entries) ++ (blanks ++ [.char '\x7d'])) := by
  cases entries with
  | nil => exact ⟨[], blank_nil, by simp [indented, indentedFields, chained, Piece.ofString]⟩
  | cons entry entries =>
    exact ⟨_, blank_lineBreak level, by
      rw [indented, Piece.ofString_append, Piece.ofString_append, Piece.ofString_append,
        ofString_intercalate]
      simp [Piece.ofString]⟩

/-! ## Sizes -/

theorem Document.length_lt_list (level : ℕ) (items : List Document) :
    items.length < (Piece.ofString ((Document.list items).indented level)).length := by
  rcases ofString_list level items with ⟨closing, -, written⟩
  have parts := length_le_chained true (indentedItems (level + 1) items)
  simp [written, indentedItems_eq_map] at parts ⊢
  omega

theorem Document.length_lt_record (level : ℕ) (entries : List (String × Document)) :
    entries.length < (Piece.ofString ((Document.record entries).indented level)).length := by
  rcases ofString_record level entries with ⟨closing, -, written⟩
  have parts := length_le_chained true (indentedFields (level + 1) entries)
  simp [written, indentedFields_eq_map] at parts ⊢
  omega

theorem Document.length_value_lt_record (level : ℕ) {entries : List (String × Document)}
    {name : String} {value : Document} (among : (name, value) ∈ entries) :
    (Piece.ofString (value.indented (level + 1))).length <
      (Piece.ofString ((Document.record entries).indented level)).length := by
  rcases ofString_record level entries with ⟨closing, -, written⟩
  have isPart : lineBreak (level + 1) ++ writtenString name ++ ": " ++ value.indented (level + 1) ∈
      indentedFields (level + 1) entries := by
    rw [indentedFields_eq_map]
    exact List.mem_map.mpr ⟨_, among, rfl⟩
  have part := length_part_le_chained isPart true
  simp [written] at part ⊢
  omega

/-! ## Records that read back -/

namespace Schema

/-- The schema has a field of the name, whose value is read by the decoder and
put into the record. -/
def Has (schema : Schema α) (name : String) (decoder : Decoder β) (put : β → α → α) : Prop :=
  ∃ aliases mandatory, schema.fields.find? (·.answersTo name) =
    some ⟨name, aliases, mandatory, decoder.map put⟩

/-- Entries one after the other turn one record into another. -/
inductive Fills (schema : Schema α) (room : Room) (level : ℕ) :
    α → List (String × Document) → α → Prop
  | done (record : α) : Fills schema room level record [] record
  | entry {γ : Type} {record final : α} {name : String} {decoder : Decoder γ} {put : γ → α → α}
      {value : Document} {part : γ} {entries : List (String × Document)}
      (has : schema.Has name decoder put)
      (reads : decoder.Reads room (value.indented level) part)
      (others : Fills schema room level (put part record) entries final) :
      Fills schema room level record ((name, value) :: entries) final

/-- One of the entries is refused by its field, and those before it are read. -/
inductive Spoils (schema : Schema α) (room : Room) (level : ℕ) : List (String × Document) → Prop
  | here {γ : Type} {name : String} {decoder : Decoder γ} {put : γ → α → α} {value : Document}
      {entries : List (String × Document)} (has : schema.Has name decoder put)
      (refuses : decoder.Refuses room (value.indented level)) :
      Spoils schema room level ((name, value) :: entries)
  | later {γ : Type} {name : String} {decoder : Decoder γ} {put : γ → α → α} {value : Document}
      {part : γ} {entries : List (String × Document)} (has : schema.Has name decoder put)
      (reads : decoder.Reads room (value.indented level) part)
      (others : Spoils schema room level entries) :
      Spoils schema room level ((name, value) :: entries)

variable {schema : Schema α} {room : Room} {level : ℕ} {name : String} {decoder : Decoder β}
  {put : β → α → α} {value : Document} {entries : List (String × Document)} {record final : α}

/-- A name that was read before is refused. -/
theorem readField_of_seen (has : schema.Has name decoder put) {state : α × List String}
    (seen : name ∈ state.2) (text : List Piece) :
    schema.readField room state name text = .error (.mismatch (.duplicateField name)) := by
  rcases has with ⟨aliases, mandatory, answers⟩
  simp [readField, answers, seen]

theorem readField_of_unseen (has : schema.Has name decoder put) {state : α × List String}
    (unseen : name ∉ state.2) (text : List Piece) :
    schema.readField room state name (Piece.ofString ": " ++ text) =
      decoder room ([.char ' '] ++ text) >>= fun read =>
        .ok ((put read.1 state.1, name :: state.2), read.2) := by
  rcases has with ⟨aliases, mandatory, answers⟩
  have notSeen : state.2.contains name = false := by simpa using unseen
  simp only [readField, answers, notSeen]
  change Decoder.map put decoder room ([.char ' '] ++ text) >>= _ = _
  rw [Decoder.map]
  cases decoder room ([.char ' '] ++ text) with
  | error fault => rfl
  | ok read => rfl

/-- One round reads one entry. -/
theorem fields_entry (room : Room) (rounds : ℕ) (first : Bool) (state : α × List String)
    (rest : List Piece) :
    Json.fields (schema.readField room) (rounds + 1) first state
        (chained first (Document.indentedFields level ((name, value) :: entries)) ++ rest) =
      schema.readField room state name (Piece.ofString ": " ++
          (Piece.ofString (value.indented level) ++
            (chained false (Document.indentedFields level entries) ++ rest))) >>=
        fun read => Json.fields (schema.readField room) rounds false read.1 read.2 := by
  rw [Document.indentedFields, chained]
  simp only [Piece.ofString_append, List.append_assoc]
  rw [fields_lead _ _ _ _ (blank_lineBreak level)]

theorem fields_of_reads (has : schema.Has name decoder put) {part : β}
    (reads : decoder.Reads room (value.indented level) part) (rounds : ℕ) (first : Bool)
    {state : α × List String} (unseen : name ∉ state.2) {rest : List Piece}
    (stops : Stops rest) :
    Json.fields (schema.readField room) (rounds + 1) first state
        (chained first (Document.indentedFields level ((name, value) :: entries)) ++ rest) =
      Json.fields (schema.readField room) rounds false (put part state.1, name :: state.2)
        (chained false (Document.indentedFields level entries) ++ rest) := by
  rw [fields_entry, readField_of_unseen has unseen,
    reads _ _ blank_space (stops_chained _ stops), ok_bind, ok_bind]

/-- Reading goes through the entries of a record one round each, and then meets
its end. -/
theorem fields_of_fills (fills : schema.Fills room level record entries final) {rounds : ℕ}
    (enough : entries.length < rounds) (first : Bool) (seen : List String)
    (fresh : (entries.map Prod.fst ++ seen).Nodup) (blank : Blank blanks) (rest : List Piece) :
    Json.fields (schema.readField room) rounds first (record, seen)
        (chained first (Document.indentedFields level entries) ++
          (blanks ++ .char '\x7d' :: rest)) =
      .ok ((final, (entries.map Prod.fst).reverse ++ seen), blanks ++ .char '\x7d' :: rest) := by
  induction fills generalizing rounds first seen with
  | done record =>
    cases rounds with
    | zero => simp at enough
    | succ rounds =>
      rw [Document.indentedFields, chained, List.nil_append, Json.fields,
        nextName_end blank, ok_bind]
      rfl
  | @entry γ record final name decoder put value part entries has reads others
      ih =>
      cases rounds with
      | zero => simp at enough
      | succ rounds =>
        rw [List.map_cons, List.cons_append] at fresh
        have unseen : name ∉ seen := fun among =>
          (List.nodup_cons.mp fresh).1 (List.mem_append_right _ among)
        rw [fields_of_reads has reads rounds first unseen
            (stops_blank_append blank (stops_brace rest)),
          ih (by simpa using enough) false _ (List.nodup_middle.mpr fresh)]
        simp

/-- A record is not read past an entry that is refused, whatever comes after
it. -/
theorem fields_of_spoils (spoils : schema.Spoils room level entries) (rounds : ℕ) (first : Bool)
    (state : α × List String) {rest : List Piece} (stops : Stops rest) :
    ∃ error, Json.fields (schema.readField room) rounds first state
      (chained first (Document.indentedFields level entries) ++ rest) = .error error := by
  induction spoils generalizing rounds first state with
  | @here γ name decoder put value entries has refuses =>
    cases rounds with
    | zero => exact ⟨_, rfl⟩
    | succ rounds =>
      rw [fields_entry]
      by_cases seen : name ∈ state.2
      · exact ⟨_, by rw [readField_of_seen has seen, error_bind]⟩
      · rcases refuses _ _ blank_space with ⟨error, refused⟩
        exact ⟨error, by rw [readField_of_unseen has seen, refused, error_bind, error_bind]⟩
  | @later γ name decoder put value part entries has reads others ih =>
    cases rounds with
    | zero => exact ⟨_, rfl⟩
    | succ rounds =>
      by_cases seen : name ∈ state.2
      · exact ⟨_, by rw [fields_entry, readField_of_seen has seen, error_bind]⟩
      · rw [fields_of_reads has reads rounds first seen stops]
        exact ih rounds false _

/-- A written record is read entry by entry. -/
theorem decoder_record (schema : Schema α) (depth rounds level : ℕ)
    (entries : List (String × Document)) (blank : Blank blanks) (rest : List Piece) :
    ∃ closing, Blank closing ∧
      schema.decoder ⟨depth + 1, rounds⟩
          (blanks ++ (Piece.ofString ((Document.record entries).indented level) ++ rest)) =
        schema.readObject ⟨depth, rounds⟩
          (chained true (Document.indentedFields (level + 1) entries) ++
            (closing ++ .char '\x7d' :: rest)) := by
  rcases Document.ofString_record level entries with ⟨closing, closingBlank, written⟩
  rw [decoder, skipSpace_append blank, written, List.cons_append, skipSpace_cons rfl,
    List.append_assoc, List.append_assoc, List.singleton_append]
  exact ⟨closing, closingBlank, rfl⟩

/-- A written record reads as what its entries make of the schema's starting
record. -/
theorem reads_record {depth rounds : ℕ}
    (fills : schema.Fills ⟨depth, rounds⟩ (level + 1) schema.start entries final)
    (fresh : (entries.map Prod.fst).Nodup)
    (complete : ∀ field ∈ schema.fields, field.mandatory = true → field.name ∈ entries.map Prod.fst)
    (enough : entries.length < rounds) :
    schema.decoder.Reads ⟨depth + 1, rounds⟩ ((Document.record entries).indented level) final := by
  intro blanks rest blank _
  rcases schema.decoder_record depth rounds level entries blank rest with
    ⟨closing, closingBlank, reading⟩
  have noneMissing : (schema.fields.find? fun field =>
      field.mandatory && !(entries.map Prod.fst).reverse.contains field.name) = none := by
    simpa [List.find?_eq_none] using complete
  have loop := fields_of_fills fills enough true [] (by rwa [List.append_nil]) closingBlank rest
  rw [List.append_nil] at loop
  simp only [reading, readObject, loop, ok_bind]
  rw [noneMissing, closeObject_end closingBlank]
  rfl

/-- A record is refused for an entry that its field refuses. -/
theorem refuses_record {depth rounds : ℕ}
    (spoils : schema.Spoils ⟨depth, rounds⟩ (level + 1) entries) :
    schema.decoder.Refuses ⟨depth + 1, rounds⟩ ((Document.record entries).indented level) := by
  intro blanks rest blank
  rcases schema.decoder_record depth rounds level entries blank rest with
    ⟨closing, closingBlank, reading⟩
  rcases fields_of_spoils spoils rounds true (schema.start, [])
    (stops_blank_append closingBlank (stops_brace rest)) with ⟨error, loop⟩
  exact ⟨error, by simp only [reading, readObject, loop, error_bind]⟩

end Schema

end CodeAtlas.Json
