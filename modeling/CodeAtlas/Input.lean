import CodeAtlas.Config.Read
import CodeAtlas.Folder
import CodeAtlas.Model.Payload

/-!
# Payloads and settings from files

A file that cannot be used is told apart by what was wanted from it and by
whether it could not be read or not be understood.
-/

namespace CodeAtlas

/-- Why a file is of no use. -/
inductive InputFailure where
  | readingPayload (path : PathName) (cause : ReadFailure)
  | parsingPayload (path : PathName) (cause : Json.Error)
  | readingConfig (path : PathName) (cause : ReadFailure)
  | parsingConfig (cause : Json.Error)

namespace InputFailure

/-- What was being done. -/
def context : InputFailure → String
  | readingPayload path _ => "reading payload " ++ path.text
  | parsingPayload path _ => "parsing payload " ++ path.text
  | readingConfig path _ => "reading engine config " ++ path.text
  | parsingConfig _ => "parsing engine config"

/-- Why a text is refused, in words. -/
def causeOf : Json.Error → String
  | .ended => "unexpected end of the text"
  | .malformed => "malformed text"
  | .mismatch cause => cause.message

/-- What was being done and why it failed. -/
def message (failure : InputFailure) : String :=
  failure.context ++ ": " ++ match failure with
    | readingPayload _ cause => cause.message
    | parsingPayload _ (.mismatch cause) => Payload.errorMessage cause
    | parsingPayload _ cause => causeOf cause
    | readingConfig _ cause => cause.message
    | parsingConfig cause => causeOf cause

end InputFailure

/-- Reads a payload from a file. -/
def Payload.read (files : FileReader) (path : PathName) : Except InputFailure Payload :=
  match files path with
  | .error cause => .error (.readingPayload path cause)
  | .ok text =>
    match Payload.ofPieces text with
    | .error cause => .error (.parsingPayload path cause)
    | .ok payload => .ok payload

/-- Reads the settings of the diagram from a file, which must be a text. -/
def EngineConfig.read (files : FileReader) (path : PathName) :
    Except InputFailure (EngineConfig Float32) :=
  match files path with
  | .error cause => .error (.readingConfig path cause)
  | .ok text =>
    if text.any Text.Piece.isStray then .error (.readingConfig path .notText)
    else
      match EngineConfig.schema.decoder.run text with
      | .error cause => .error (.parsingConfig cause)
      | .ok config => .ok config

end CodeAtlas
