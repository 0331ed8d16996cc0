import CodeAtlas.Command.Run

/-!
# The program
-/

namespace CodeAtlas

/-- Why the disk could not be read. -/
def readFailureOf : IO.Error → ReadFailure
  | .noFileOrDirectory .. => .missing
  | .inappropriateType .. => .folder
  | _ => .missing

/-- Reads files from the disk. -/
def readFiles (paths : List PathName) : IO FileReader := do
  let contents ← paths.mapM fun path => do
    let content ← try
        pure (.ok (Text.Piece.ofBytes (← IO.FS.readBinFile path.text).toList))
      catch failure => pure (.error (readFailureOf failure))
    pure (path, content)
  pure fun path => ((contents.find? fun (known, _) => known = path).map Prod.snd).getD
    (.error .missing)

/-- Writes a picture to the disk; tells whether that went well. -/
def writeSnapshot (snapshot : Snapshot) : IO Bool := do
  try
    IO.FS.writeBinFile snapshot.path.text (snapshot.picture.encode snapshot.format)
    pure true
  catch _ => pure false

/-- Ends the run. -/
def finish (ending : Ending) : IO UInt32 := do
  IO.print ending.output
  match ending.error with
  | some message => IO.eprintln message
  | none => if ending.code = 2 then IO.eprint Help.overview
  pure (UInt32.ofNat ending.code)

/-- Runs the program on the disk. -/
def runOnDisk (fonts : Fonts Float32) (words : List String) : IO UInt32 := do
  match Arguments.parse words with
  | .error stop => finish (.ofStop stop)
  | .ok arguments =>
    let files ← readFiles arguments.inputs
    match arguments.run fonts files with
    | .error failure => finish (.ofFailure failure)
    | .ok product =>
      let written ← match product.snapshot with
        | some snapshot => writeSnapshot snapshot
        | none => pure true
      match written, product.snapshot with
      | false, some snapshot => finish (.ofFailure (.writing snapshot.path))
      | _, _ => finish { code := 0, output := product.output }

end CodeAtlas

/-- The program, without any font. -/
def main (words : List String) : IO UInt32 :=
  CodeAtlas.runOnDisk .unknown words
