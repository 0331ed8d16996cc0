import CodeAtlas.Command.Help
import CodeAtlas.Command.Output
import CodeAtlas.Engine.Pointer
import CodeAtlas.Input
import CodeAtlas.Raster.File
import CodeAtlas.Raster.Render

/-!
# Runs of the program

A command either prints a document or paints a picture that goes to a file.
-/

namespace CodeAtlas

/-- Why a command fails. -/
inductive CommandFailure where
  | input (failure : InputFailure)
  | notMethod (root : NodeId) (payload : PathName)
  | writing (path : PathName)
  /-- Something cannot be computed at all. -/
  | fault (fault : Fault)

/-- What was being done, for those failures that can be told. -/
def CommandFailure.message? : CommandFailure → Option String
  | input failure => some failure.context
  | notMethod root payload => some (root ++ " is not a method in " ++ payload.text)
  | writing path => some ("writing snapshot " ++ path.text)
  | fault _ => none

/-- A picture and the file that it goes to. -/
structure Snapshot where
  path : PathName
  format : PictureFormat
  picture : Picture

namespace Snapshot

/-- The picture as it is read back from its file, if there is a reader. -/
def reread? (snapshot : Snapshot) : Option Picture :=
  if snapshot.format.isReadable then some snapshot.picture else none

end Snapshot

/-- What a command brings about. -/
structure Product where
  output : String
  snapshot : Option Snapshot := none

namespace Arguments

/-- The files that a command reads. -/
def inputs (arguments : Arguments) : List PathName :=
  arguments.config.toList ++ match arguments.command with
    | .layout payload _ | .sequence payload _ | .render payload _ _ _ _ _ => [payload]

/-- The settings of the diagram. -/
def loadConfig (files : FileReader) (arguments : Arguments) :
    Except CommandFailure (EngineConfig Float32) :=
  match arguments.config with
  | none => .ok .standard
  | some path => (EngineConfig.read files path).mapError .input

end Arguments

/-- The diagram, unless it holds something that cannot be held. -/
def Engine.held {R : Type} [Scalar R] (engine : Engine R) : Except CommandFailure (Engine R) :=
  engine.checked.mapError .fault

/-- The diagram of a payload. -/
def Engine.load (fonts : Fonts Float32) (files : FileReader) (config : EngineConfig Float32)
    (payload : PathName) (perspective : Perspective) (viewport : Vec Float32) :
    Except CommandFailure (IngestReport × Engine Float32) := do
  let data ← (Payload.read files payload).mapError .input
  let engine := ((Engine.create fonts files config viewport).setPerspective perspective).2
  let (report, engine) := engine.setPayload data
  pure (report, ← engine.held)

/-- The diagram with the calls from a method shown. -/
def Engine.enterSequence (engine : Engine Float32) (root : NodeId) (payload : PathName) :
    Except CommandFailure (Engine Float32) :=
  match engine.showSequence root with
  | (true, engine) => engine.held
  | (false, _) => .error (.notMethod root payload)

namespace Product

/-- Prints a document. -/
def printing (document : Json.Document) : Product :=
  { output := document.pretty ++ "\n" }

/-- Paints the diagram.  The extension of the file tells the format, and a file
without extension becomes a `png` file.  Not every format has room for every
picture. -/
def painting (engine : Engine Float32) (out : PathName) (width height : Nat) :
    Except CommandFailure Product := do
  let canvas ← (engine.frame.render engine.pool).mapError .fault
  let path := out.ensureExtension "png"
  match path.extension?.bind PictureFormat.ofExtension? with
  | none => .error (.writing path)
  | some format =>
    if format.holds canvas.width canvas.height then
      pure {
        output := "Wrote " ++ toString width ++ "x" ++ toString height ++ " snapshot to " ++
          path.text ++ "\n"
        snapshot := some ⟨path, format, canvas.picture⟩ }
    else .error (.writing path)

end Product

/-- Does what the command line says, but for the writing of files. -/
def Arguments.run (fonts : Fonts Float32) (files : FileReader) (arguments : Arguments) :
    Except CommandFailure Product := do
  let config ← arguments.loadConfig files
  match arguments.command with
  | .layout payload perspective =>
    let (report, engine) ← Engine.load fonts files config payload perspective ⟨1600.0, 1000.0⟩
    pure (.printing (engine.layoutDocument report))
  | .sequence payload root =>
    let (_, engine) ← Engine.load fonts files config payload .technical ⟨1600.0, 1000.0⟩
    let engine ← engine.enterSequence root payload
    match engine.sequence? with
    | some view => pure (.printing view.document)
    | none => .error (.notMethod root payload)
  | .render payload out perspective root width height =>
    let (_, engine) ← Engine.load fonts files config payload perspective
      ⟨Scalar.ofNat width, Scalar.ofNat height⟩
    let engine ← match root with
      | some root => engine.enterSequence root payload
      | none => pure engine
    Product.painting engine out width height

/-- How a run of the program ends. -/
structure Ending where
  code : Nat
  output : String := ""
  /-- What stands first in the error output of a failed run. -/
  error : Option String := none
  /-- The picture that was written. -/
  snapshot : Option Snapshot := none

namespace Ending

/-- The end of a run that did not get as far as a command. -/
def ofStop : Stop → Ending
  | .help topic => { code := 0, output := Help.text topic }
  | .version => { code := 0, output := Help.version }
  | .misuse => { code := 2 }

/-- The end of a run whose command failed. -/
def ofFailure (failure : CommandFailure) : Ending :=
  match failure.message? with
  | some message => { code := 1, error := some ("Error: " ++ message) }
  | none => { code := 101 }

end Ending

/-- Runs the program in a folder. -/
def Folder.run (fonts : Fonts Float32) (folder : Folder) (words : List String) : Ending :=
  match Arguments.parse words with
  | .error stop => .ofStop stop
  | .ok arguments =>
    match arguments.run fonts folder.reader with
    | .error failure => .ofFailure failure
    | .ok product =>
      match product.snapshot with
      | none => { code := 0, output := product.output }
      | some snapshot =>
        if folder.admits snapshot.path then
          { code := 0, output := product.output, snapshot := some snapshot }
        else .ofFailure (.writing snapshot.path)

end CodeAtlas
