import CodeAtlas.Json.Decoder
import CodeAtlas.Json.Document
import Mathlib.Data.Int.Notation
import Mathlib.Data.List.Basic

/-!
# Words that read back

A written string reads back as it was, with whatever text after it left over.  A
number is read to its end, so what follows does not change it unless it goes on
like a number.
-/

namespace CodeAtlas.Json

open CodeAtlas.Text (Piece)

variable {rest text left : List Piece}

@[simp]
theorem ok_bind {ε α β : Type} (first : α) (next : α → Except ε β) :
    Except.ok first >>= next = next first :=
  rfl

@[simp]
theorem error_bind {ε α β : Type} (fault : ε) (next : α → Except ε β) :
    Except.error fault >>= next = .error fault :=
  rfl

/-- Reading goes on only from what was read. -/
theorem bind_eq_ok {ε α β : Type} {reading : Except ε α} {next : α → Except ε β} {value : β} :
    reading >>= next = .ok value ↔ ∃ first, reading = .ok first ∧ next first = .ok value := by
  cases reading with
  | error fault => simp
  | ok first => simp

/-! ## Blanks -/

/-- The pieces are nothing but blanks. -/
def Blank (blanks : List Piece) : Prop :=
  ∀ piece ∈ blanks, isSpace piece = true

theorem blank_nil : Blank [] := by
  simp [Blank]

theorem blank_space : Blank [.char ' '] := by
  simp [Blank, isSpace]

theorem blank_lineBreak (level : ℕ) : Blank (Piece.ofString (Document.lineBreak level)) := by
  simp [Blank, Piece.ofString, Document.lineBreak, isSpace]

theorem skipSpace_cons {piece : Piece} (solid : isSpace piece = false) (text : List Piece) :
    skipSpace (piece :: text) = piece :: text := by
  simp [skipSpace, solid]

theorem skipSpace_append {blanks : List Piece} (blank : Blank blanks) (text : List Piece) :
    skipSpace (blanks ++ text) = skipSpace text := by
  induction blanks with
  | nil => rfl
  | cons piece blanks ih =>
    rcases List.forall_mem_cons.mp blank with ⟨first, others⟩
    rw [List.cons_append, skipSpace, List.dropWhile_cons_of_pos first]
    exact ih others

/-- What is left after the blanks of a text goes on with what follows the text. -/
theorem skipSpace_append_of_eq_cons {text tail : List Piece} {piece : Piece}
    (left : skipSpace text = piece :: tail) (rest : List Piece) :
    skipSpace (text ++ rest) = piece :: (tail ++ rest) := by
  unfold skipSpace at left ⊢
  rw [List.dropWhile_append, left]
  rfl

/-! ## Strings -/

theorem hexNumber?_hexChar : ∀ code < 0x20,
    hexNumber? ['0', '0', hexChar (code / 16), hexChar (code % 16)] = some code := by
  decide

/-- A character without a sign of its own is written by its number. -/
theorem escape_control {c : Char} (control : c.toNat < 0x20) (text : List Piece) :
    escape (.char 'u' :: .char '0' :: .char '0' :: .char (hexChar (c.toNat / 16)) ::
      .char (hexChar (c.toNat % 16)) :: text) = .ok (c, 5) := by
  have word : hexWord (.char '0' :: .char '0' :: .char (hexChar (c.toNat / 16)) ::
      .char (hexChar (c.toNat % 16)) :: text) = .ok c.toNat := by
    simp only [hexWord, hexNumber?_hexChar c.toNat control]
  have notTrail : ¬ (0xdc00 ≤ c.toNat ∧ c.toNat ≤ 0xdfff) := by omega
  have notLead : ¬ (0xd800 ≤ c.toNat ∧ c.toNat ≤ 0xdbff) := by omega
  simp only [escape, word]
  change (if _ then _ else _) = _
  rw [if_neg notTrail, if_neg notLead, Char.ofNat_toNat]

/-- One written character reads as that character, whatever follows. -/
theorem stringBody_writtenChar (c : Char) (text : List Piece) :
    stringBody ((writtenChar c).map .char ++ text) 0 =
      (stringBody text 0).map fun read => (c :: read.1, read.2) := by
  unfold writtenChar
  split_ifs with quote slash newline carriage tab backspace feed control
  · subst quote
    rfl
  · subst slash
    rfl
  · subst newline
    rfl
  · subst carriage
    rfl
  · subst tab
    rfl
  · subst backspace
    rfl
  · subst feed
    rfl
  · have escaped := escape_control control text
    simp only [List.map_cons, List.map_nil, List.cons_append, List.nil_append, stringBody, escaped]
    rfl
  · simp only [List.map_cons, List.map_nil, List.cons_append, List.nil_append, stringBody,
      if_neg quote, if_neg slash, if_neg control]
    rfl

theorem stringBody_written (chars : List Char) (rest : List Piece) :
    stringBody ((chars.flatMap writtenChar).map .char ++ .char '"' :: rest) 0 =
      .ok (chars, rest) := by
  induction chars with
  | nil => rfl
  | cons c chars ih =>
    rw [List.flatMap_cons, List.map_append, List.append_assoc, stringBody_writtenChar, ih]
    rfl

/-- The pieces of a written string. -/
theorem ofString_writtenString (text : String) :
    Piece.ofString (writtenString text) =
      .char '"' :: ((text.toList.flatMap writtenChar).map .char ++ [.char '"']) := by
  simp [Piece.ofString, writtenString, String.toList_append]

/-- A written string starts with its quote, whatever blanks come before. -/
theorem skipSpace_writtenString {blanks : List Piece} (blank : Blank blanks) (text : String)
    (rest : List Piece) :
    skipSpace (blanks ++ (Piece.ofString (writtenString text) ++ rest)) =
      .char '"' :: ((text.toList.flatMap writtenChar).map .char ++ .char '"' :: rest) := by
  rw [skipSpace_append blank, ofString_writtenString, List.cons_append, skipSpace_cons rfl,
    List.append_assoc, List.singleton_append]

/-- A written string reads back, whatever follows. -/
theorem string_written (text : String) (rest : List Piece) :
    Json.string ((text.toList.flatMap writtenChar).map .char ++ .char '"' :: rest) =
      .ok (text, rest) := by
  rw [Json.string, stringBody_written]
  exact congrArg (fun read => Except.ok (read, rest)) String.ofList_toList

/-! ## Numbers -/

/-- The text does not go on like a number. -/
def Stops : List Piece → Prop
  | [] => True
  | piece :: _ => digit? piece = none ∧ piece ∉ [.char '.', .char 'e', .char 'E']

theorem digits_append (text : List Piece) (stops : Stops rest) :
    digits (text ++ rest) = ((digits text).1, (digits text).2 ++ rest) := by
  induction text with
  | nil =>
    cases rest with
    | nil => rfl
    | cons piece rest => simp [digits, stops.1]
  | cons piece text ih =>
    cases digit : digit? piece with
    | none => simp [digits, digit]
    | some value =>
      simp only [digits, Prod.mk.injEq] at ih
      simp [digits, digit, ih.1, ih.2]

theorem someDigits_eq_ok {found : List ℕ} :
    someDigits text = .ok (found, left) ↔ digits text = (found, left) ∧ found ≠ [] := by
  unfold someDigits
  rcases digits text with ⟨_ | ⟨digit, others⟩, _ | ⟨piece, tail⟩⟩ <;> simp +contextual [eq_comm]

/-- Digits that are found are found again, whatever follows them. -/
theorem someDigits_append {found : List ℕ} (read : someDigits text = .ok (found, left))
    (stops : Stops rest) :
    someDigits (text ++ rest) = .ok (found, left ++ rest) := by
  rw [someDigits_eq_ok] at read ⊢
  rcases read with ⟨here, some⟩
  exact ⟨by rw [digits_append text stops, here], some⟩

theorem exponentSign_append {text : List Piece} (some : text ≠ []) (rest : List Piece) :
    exponentSign (text ++ rest) = ((exponentSign text).1, (exponentSign text).2 ++ rest) := by
  cases text with
  | nil => exact absurd rfl some
  | cons piece text =>
    rw [List.cons_append]
    unfold exponentSign
    split <;> simp_all

theorem exponentMark?_append (text : List Piece) (stops : Stops rest) :
    exponentMark? (text ++ rest) = (exponentMark? text).map (· ++ rest) := by
  cases text with
  | nil =>
    cases rest with
    | nil => rfl
    | cons piece rest =>
      have noMark := stops.2
      cases piece with
      | stray byte => rfl
      | char c =>
        simp only [List.mem_cons, Piece.char.injEq, List.not_mem_nil, or_false, not_or] at noMark
        simp [exponentMark?, noMark.2.1, noMark.2.2]
  | cons piece text =>
    cases piece with
    | stray byte => rfl
    | char c =>
      simp only [List.cons_append, exponentMark?]
      split <;> rfl

theorem fractionMark?_append (text : List Piece) (stops : Stops rest) :
    fractionMark? (text ++ rest) = (fractionMark? text).map (· ++ rest) := by
  cases text with
  | nil =>
    cases rest with
    | nil => rfl
    | cons piece rest =>
      have noMark : piece ≠ .char '.' := fun isPoint => stops.2 (by simp [isPoint])
      simp only [List.nil_append, fractionMark?]
      split <;> simp_all
  | cons piece text =>
    rw [List.cons_append]
    unfold fractionMark?
    split <;> simp_all

theorem exponentPart_append {negative : Bool} {significand : ℕ} {shift : ℤ} {value : Number}
    (read : exponentPart negative significand shift text = .ok (value, left)) (stops : Stops rest) :
    exponentPart negative significand shift (text ++ rest) = .ok (value, left ++ rest) := by
  have some : text ≠ [] := by
    rintro rfl
    cases read
  simp only [exponentPart, exponentSign_append some, bind_eq_ok, Except.ok.injEq,
    Prod.mk.injEq] at read ⊢
  rcases read with ⟨⟨power, middle⟩, found, size, isRaised, rfl, rfl⟩
  exact ⟨_, someDigits_append found stops, size, isRaised, rfl, rfl⟩

theorem fractionPart_append {negative : Bool} {significand : ℕ} {shift : ℤ} {value : Number}
    (read : fractionPart negative significand shift text = .ok (value, left)) (stops : Stops rest) :
    fractionPart negative significand shift (text ++ rest) = .ok (value, left ++ rest) := by
  simp only [fractionPart, bind_eq_ok] at read ⊢
  rcases read with ⟨⟨fraction, middle⟩, found, read⟩
  refine ⟨_, someDigits_append found stops, ?_⟩
  simp only [exponentMark?_append middle stops]
  cases mark : exponentMark? middle with
  | some tail =>
    simp only [mark] at read
    exact exponentPart_append read stops
  | none =>
    simp only [mark, bind_eq_ok, Except.ok.injEq, Prod.mk.injEq] at read
    rcases read with ⟨size, isScaled, rfl, rfl⟩
    exact bind_eq_ok.mpr ⟨size, isScaled, rfl⟩

/-- A number that is read is read again, whatever follows it. -/
theorem number_append {negative : Bool} {value : Number}
    (read : number negative text = .ok (value, left))
    (stops : Stops rest) : number negative (text ++ rest) = .ok (value, left ++ rest) := by
  simp only [number, bind_eq_ok] at read ⊢
  rcases read with ⟨⟨whole, middle⟩, found, read⟩
  refine ⟨_, someDigits_append found stops, ?_⟩
  simp only [exponentMark?_append middle stops, fractionMark?_append middle stops]
  split_ifs at read ⊢
  cases power : exponentMark? middle with
  | some tail =>
    simp only [power] at read
    exact exponentPart_append read stops
  | none =>
    cases point : fractionMark? middle with
    | some tail =>
      simp only [power, point] at read
      exact fractionPart_append read stops
    | none =>
      simp only [power, point, bind_eq_ok, Except.ok.injEq, Prod.mk.injEq] at read
      rcases read with ⟨size, isInteger, rfl, rfl⟩
      exact bind_eq_ok.mpr ⟨size, isInteger, rfl⟩

/-- A number is read the same in any room, with blanks before it and text after
it. -/
theorem numberAs_append {expected : String} {room other : Room} {value : Number}
    (read : Decoder.numberAs expected room text = .ok (value, left)) {blanks : List Piece}
    (blank : Blank blanks) (stops : Stops rest) :
    Decoder.numberAs expected other (blanks ++ (text ++ rest)) = .ok (value, left ++ rest) := by
  unfold Decoder.numberAs at read ⊢
  rw [skipSpace_append blank]
  cases start : skipSpace text with
  | nil =>
    rw [start] at read
    cases read
  | cons piece tail =>
    rw [skipSpace_append_of_eq_cons start]
    rw [start] at read
    by_cases minus : piece = .char '-'
    · subst minus
      exact number_append read stops
    · simp only at read ⊢
      split_ifs at read ⊢
      exact number_append read stops

end CodeAtlas.Json
