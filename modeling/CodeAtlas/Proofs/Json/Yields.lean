import CodeAtlas.Json.Schema
import CodeAtlas.Proofs.Json.Words
import CodeAtlas.Proofs.Number.Numeric

/-!
# What decoders yield

A decoder yields a property if everything that it reads has it, whatever the
text.  Numbers are always read as numbers.  A record has a property as soon as
the record before any field has it and no field takes it away, whether the
record is written as an object or as a list.
-/

namespace CodeAtlas.Json

open CodeAtlas.Text (Piece)

variable {text rest : List Piece} {value : Number} {negative : Bool} {significand : ℕ} {shift : ℤ}

/-! ## Numbers are numbers -/

theorem isNaN_scaleDown (steps : ℕ) {value : Float} (number : value.isNaN = false)
    (exponent : ℤ) : (scaleDown steps value exponent).isNaN = false := by
  fun_induction scaleDown steps value exponent with
  | case1 => exact number
  | case2 steps value exponent small =>
    exact Numeric.isNaN_div number (Numeric.isScale_power small)
  | case3 => exact number
  | case4 steps value exponent large nonzero ih =>
    exact ih (Numeric.isNaN_div number (Numeric.isScale_power (Nat.le_refl 308)))

theorem isNaN_of_scaled {exponent : ℤ} {value : Float}
    (read : scaled significand exponent = .ok value) : value.isNaN = false := by
  have number := Numeric.isNaN_floatOfNat significand
  unfold scaled at read
  dsimp only at read
  split at read
  · cases read
    exact isNaN_scaleDown 4 number exponent
  split at read
  · split at read
    · cases read
    · cases read
      exact Numeric.isNaN_mul number (Numeric.isScale_power (by omega))
  split at read
  · cases read
    exact number
  · cases read

theorem isNaN_of_raised {down : Bool} {power : List ℕ} {value : Float}
    (read : raised significand shift down power = .ok value) :
    value.isNaN = false := by
  unfold raised at read
  dsimp only at read
  split at read
  · split at read
    · cases read
    · cases read
      exact Numeric.isNaN_floatOfNat 0
  · exact isNaN_of_scaled read

/-- The number has a value in every precision. -/
def Number.Defined : Number → Prop
  | .whole _ => True
  | .real value => value.isNaN = false

theorem Number.Defined.toSingle (defined : value.Defined) :
    value.toSingle.isNaN = false := by
  cases value with
  | whole value => exact Numeric.isNaN_float32OfInt value
  | real value => exact Numeric.isNaN_ofDouble defined

theorem defined_signed (negative : Bool) {value : Float} (number : value.isNaN = false) :
    (signed negative value).Defined := by
  cases negative with
  | false => exact number
  | true => exact Numeric.isNaN_negated number

theorem defined_of_exponentPart
    (read : exponentPart negative significand shift text = .ok (value, rest)) :
    value.Defined := by
  obtain ⟨power, _, read⟩ := bind_eq_ok.mp read
  obtain ⟨size, raised, read⟩ := bind_eq_ok.mp read
  cases read
  exact defined_signed negative (isNaN_of_raised raised)

theorem defined_of_fractionPart
    (read : fractionPart negative significand shift text = .ok (value, rest)) :
    value.Defined := by
  obtain ⟨fraction, _, read⟩ := bind_eq_ok.mp read
  dsimp only at read
  split at read
  · exact defined_of_exponentPart read
  · obtain ⟨size, scaled, read⟩ := bind_eq_ok.mp read
    cases read
    exact defined_signed negative (isNaN_of_scaled scaled)

theorem defined_of_integer {significand shift : ℕ}
    (read : integer negative significand shift = .ok value) : value.Defined := by
  unfold integer at read
  split at read
  · split at read
    · cases read
      trivial
    split at read
    · cases read
      exact Numeric.isNaN_negated (Numeric.isNaN_floatOfNat significand)
    · cases read
      trivial
  · obtain ⟨size, scaled, read⟩ := bind_eq_ok.mp read
    cases read
    exact defined_signed negative (isNaN_of_scaled scaled)

theorem defined_of_number (read : number negative text = .ok (value, rest)) : value.Defined := by
  obtain ⟨whole, _, read⟩ := bind_eq_ok.mp read
  dsimp only at read
  split at read
  · cases read
  split at read
  · exact defined_of_exponentPart read
  · exact defined_of_fractionPart read
  · obtain ⟨integer, read', read⟩ := bind_eq_ok.mp read
    cases read
    exact defined_of_integer read'

/-! ## Decoders -/

namespace Decoder

variable {α β : Type}

/-- Everything that is read has the property. -/
def Yields (decoder : Decoder α) (property : α → Prop) : Prop :=
  ∀ ⦃room text value rest⦄, decoder room text = .ok (value, rest) → property value

theorem yields_true (decoder : Decoder α) : decoder.Yields fun _ => True :=
  fun _ _ _ _ _ => trivial

theorem Yields.map {decoder : Decoder α} {property : α → Prop} (yields : decoder.Yields property)
    {f : α → β} {next : β → Prop} (step : ∀ value, property value → next (f value)) :
    (decoder.map f).Yields next := by
  intro room text value rest read
  obtain ⟨⟨first, _⟩, firstRead, read⟩ := bind_eq_ok.mp read
  cases read
  exact step first (yields firstRead)

theorem yields_numberAs (expected : String) : (numberAs expected).Yields Number.Defined := by
  intro room text value rest read
  unfold numberAs at read
  split at read
  · cases read
  · exact defined_of_number read
  · split at read
    · exact defined_of_number read
    · cases read

theorem yields_single : single.Yields fun value => value.isNaN = false :=
  (yields_numberAs "f32").map fun _ => Number.Defined.toSingle

theorem Yields.run {decoder : Decoder α} {property : α → Prop} (yields : decoder.Yields property)
    {text : List Piece} {value : α} (read : decoder.run text = .ok value) : property value := by
  obtain ⟨⟨first, rest⟩, firstRead, read⟩ := bind_eq_ok.mp read
  dsimp only at read
  split at read
  · cases read
    exact yields firstRead
  · cases read

end Decoder

/-! ## Records -/

/-- What holds before the fields of an object and is kept by each of them holds
after them. -/
theorem fields_induction {σ : Type}
    {field : σ → String → List Piece → Except Error (σ × List Piece)} (property : σ → Prop)
    (step : ∀ {state name text next rest}, property state →
      field state name text = .ok (next, rest) → property next)
    {rounds : ℕ} {first : Bool} {start final : σ} {text rest : List Piece}
    (initial : property start) (read : fields field rounds first start text = .ok (final, rest)) :
    property final := by
  induction rounds generalizing first start text with
  | zero => cases read
  | succ rounds ih =>
    obtain ⟨name?, _, read⟩ := bind_eq_ok.mp read
    split at read
    · cases read
      exact initial
    · obtain ⟨⟨next, _⟩, fieldRead, read⟩ := bind_eq_ok.mp read
      exact ih (step initial fieldRead) read

/-- Whatever is put into a record, the record keeps the property. -/
def Field.Keeps {α : Type} (field : Field α) (property : α → Prop) : Prop :=
  field.read.Yields fun put => ∀ record, property record → property (put record)

theorem Decoder.Yields.defaulted {α β : Type} {decoder : Decoder β} {good : β → Prop}
    (yields : decoder.Yields good) {name : String} {put : β → α → α} {property : α → Prop}
    (step : ∀ value record, good value → property record → property (put value record)) :
    (Field.defaulted name decoder put).Keeps property :=
  yields.map fun value valueGood record => step value record valueGood

namespace Schema

variable {α : Type} {schema : Schema α} {property : α → Prop}

theorem property_of_readField (keeps : ∀ field ∈ schema.fields, field.Keeps property) {room : Room}
    {state next : α × List String} {name : String} (holds : property state.1)
    (read : schema.readField room state name text = .ok (next, rest)) :
    property next.1 := by
  unfold readField at read
  split at read
  · obtain ⟨_, _, read⟩ := bind_eq_ok.mp read
    obtain ⟨_, _, read⟩ := bind_eq_ok.mp read
    cases read
    exact holds
  · next field found =>
      split at read
      · cases read
      · obtain ⟨_, _, read⟩ := bind_eq_ok.mp read
        obtain ⟨⟨put, _⟩, fieldRead, read⟩ := bind_eq_ok.mp read
        cases read
        exact keeps field (List.mem_of_find?_eq_some found) fieldRead state.1 holds

theorem property_of_readItems {room : Room} {fields : List (Field α)} {index : ℕ} {record final : α}
    (keeps : ∀ field ∈ fields, field.Keeps property) (holds : property record)
    (read : schema.readItems room fields index record text = .ok (final, rest)) :
    property final := by
  induction fields generalizing index record text with
  | nil =>
    obtain ⟨_, _, read⟩ := bind_eq_ok.mp read
    cases read
    exact holds
  | cons field fields ih =>
    rcases List.forall_mem_cons.mp keeps with ⟨first, others⟩
    obtain ⟨item?, _, read⟩ := bind_eq_ok.mp read
    split at read
    · split at read
      · cases read
      · exact ih others holds read
    · obtain ⟨⟨put, _⟩, fieldRead, read⟩ := bind_eq_ok.mp read
      exact ih others (first fieldRead record holds) read

/-- Records have what they start with and no field takes away. -/
theorem yields_decoder (initial : property schema.start)
    (keeps : ∀ field ∈ schema.fields, field.Keeps property) : schema.decoder.Yields property := by
  intro room text value rest read
  unfold decoder at read
  split at read
  · cases read
  · split at read
    · cases read
    · exact property_of_readItems keeps initial read
  · split at read
    · cases read
    · obtain ⟨⟨⟨record, seen⟩, _⟩, fieldsRead, read⟩ := bind_eq_ok.mp read
      have holds : property record :=
        fields_induction (fun state : α × List String => property state.1)
          (fun kept => property_of_readField keeps kept) initial fieldsRead
      dsimp only at read
      split at read
      · cases read
      · obtain ⟨_, _, read⟩ := bind_eq_ok.mp read
        cases read
        exact holds
  · cases read

end Schema

end CodeAtlas.Json
