import CodeAtlas.Model.Payload
import CodeAtlas.Text.PathName

/-!
# The command line

A command line names a command, its payload and options.  An option is written
with two dashes and its name, or with one dash and a letter; its value is the
next word, or stands in the same word behind an equals sign or, for a letter,
directly behind it.  Words are taken from left to right, so that a request for
help wins over every mistake behind it.
-/

namespace CodeAtlas

/-- What the program can be told to do. -/
inductive Command where
  /-- Print where everything is placed. -/
  | layout (payload : PathName) (perspective : Perspective)
  /-- Print the calls from a method. -/
  | sequence (payload : PathName) (root : NodeId)
  /-- Paint the map, or the calls from a method. -/
  | render (payload out : PathName) (perspective : Perspective) (root : Option NodeId)
      (width height : Nat)
deriving DecidableEq, Repr

/-- A command with the settings that it shall use. -/
structure Arguments where
  config : Option PathName
  command : Command
deriving DecidableEq, Repr

/-- The names of the commands. -/
inductive CommandName where
  | layout
  | sequence
  | render
deriving DecidableEq, Repr

def CommandName.ofText? : String → Option CommandName
  | "layout" => some layout
  | "sequence" => some sequence
  | "render" => some render
  | _ => none

/-- Why there is no command to be done. -/
inductive Stop where
  /-- Help was asked for, with all or with one command. -/
  | help (topic : Option CommandName)
  | version
  | misuse
deriving DecidableEq, Repr

/-- The values that have been given so far. -/
structure Draft where
  config : Option PathName := none
  payload : Option PathName := none
  perspective : Option Perspective := none
  root : Option NodeId := none
  out : Option PathName := none
  width : Option Nat := none
  height : Option Nat := none

/-- An option.  `take` refuses a value that does not fit or comes twice. -/
structure OptionSpec where
  name : String
  letter : Option Char
  take : String → Draft → Option Draft

namespace OptionSpec

/-- Keeps a first value and refuses a second one. -/
def once {α : Type} (given : Option α) (value : Option α) : Option α :=
  match given with
  | none => value
  | some _ => none

/-- A path, which must not be empty. -/
def pathOf (word : String) : Option PathName :=
  if word.isEmpty then none else some ⟨word⟩

def perspectiveOf (word : String) : Option Perspective :=
  match Perspective.parse word with
  | .ok perspective => some perspective
  | .error _ => none

/-- The number that decimal digits spell; there must be one at least. -/
def digitsOf (digits : List Char) : Option Nat :=
  if digits.isEmpty || digits.any (fun c => !c.isDigit) then none
  else some (digits.foldl (fun number c => number * 10 + (c.toNat - 48)) 0)

/-- A number of 32 bits, with or without a sign. -/
def countOf (word : String) : Option Nat :=
  match word.toList with
  | '+' :: digits => (digitsOf digits).filter (· < Nat.pow 2 32)
  | '-' :: digits => (digitsOf digits).filter (· = 0)
  | digits => (digitsOf digits).filter (· < Nat.pow 2 32)

def config : OptionSpec :=
  ⟨"config", some 'c', fun word draft =>
    (once draft.config (pathOf word)).map fun value => { draft with config := some value }⟩

def perspective : OptionSpec :=
  ⟨"perspective", some 'p', fun word draft =>
    (once draft.perspective (perspectiveOf word)).map fun value =>
      { draft with perspective := some value }⟩

def root : OptionSpec :=
  ⟨"root", some 'r', fun word draft =>
    (once draft.root (some word)).map fun value => { draft with root := some value }⟩

def out : OptionSpec :=
  ⟨"out", some 'o', fun word draft =>
    (once draft.out (pathOf word)).map fun value => { draft with out := some value }⟩

def width : OptionSpec :=
  ⟨"width", none, fun word draft =>
    (once draft.width (countOf word)).map fun value => { draft with width := some value }⟩

def height : OptionSpec :=
  ⟨"height", none, fun word draft =>
    (once draft.height (countOf word)).map fun value => { draft with height := some value }⟩

end OptionSpec

namespace CommandName

/-- The options of a command. -/
def options : CommandName → List OptionSpec
  | layout => [.perspective, .config]
  | sequence => [.root, .config]
  | render => [.out, .perspective, .root, .width, .height, .config]

end CommandName

namespace Draft

/-- Whether a word is an option and no value: it starts with a dash and is more
than that. -/
def isOption (word : String) : Bool :=
  match word.toList with
  | '-' :: _ :: _ => true
  | _ => false

/-- Takes a value, or complains. -/
def accept (draft : Draft) (option : OptionSpec) (value : String) : Except Stop Draft :=
  match option.take value draft with
  | some draft => .ok draft
  | none => .error .misuse

/-- Takes an option that was found.  One without a value of its own still waits
for it. -/
def begin (draft : Draft) (option : Option OptionSpec) (value : Option String) :
    Except Stop (Draft × Option OptionSpec) :=
  match option, value with
  | none, _ => .error .misuse
  | some option, none => .ok (draft, some option)
  | some option, some value => do pure (← draft.accept option value, none)

/-- Takes an option that is written with its name. -/
def takeNamed (draft : Draft) (options : List OptionSpec) (topic : Option CommandName)
    (word : List Char) : Except Stop (Draft × Option OptionSpec) :=
  let name := String.ofList (word.takeWhile (· != '='))
  let value := match word.dropWhile (· != '=') with
    | [] => none
    | _ :: value => some (String.ofList value)
  match name, topic, value with
  | "help", _, none => .error (.help topic)
  | "version", none, none => .error .version
  | _, _, _ => draft.begin (options.find? fun option => option.name == name) value

/-- Takes an option that is written with its letter. -/
def takeLettered (draft : Draft) (options : List OptionSpec) (topic : Option CommandName)
    (letter : Char) (rest : List Char) : Except Stop (Draft × Option OptionSpec) :=
  let value := match rest with
    | [] => none
    | '=' :: value => some (String.ofList value)
    | value => some (String.ofList value)
  match letter, topic with
  | 'h', _ => .error (.help topic)
  | 'V', none => .error .version
  | _, _ => draft.begin (options.find? fun option => option.letter == some letter) value

/-- Takes an option; `topic` is the command that was named before it. -/
def takeOption (draft : Draft) (options : List OptionSpec) (topic : Option CommandName)
    (word : String) : Except Stop (Draft × Option OptionSpec) :=
  match word.toList with
  | '-' :: '-' :: name => draft.takeNamed options topic name
  | '-' :: letter :: rest => draft.takeLettered options topic letter rest
  | _ => .error .misuse

/-- Takes the payload, of which there is one. -/
def takeWord (draft : Draft) (word : String) : Except Stop Draft :=
  match OptionSpec.once draft.payload (OptionSpec.pathOf word) with
  | some payload => .ok { draft with payload := some payload }
  | none => .error .misuse

/-- Takes the words behind the name of a command.  `waiting` is an option that
waits for its value; after two dashes every word is taken as it is. -/
def takeWords (name : CommandName) :
    Option OptionSpec → Draft → List String → Except Stop Draft
  | none, draft, [] => .ok draft
  | some _, _, [] => .error .misuse
  | some option, draft, word :: rest =>
    if isOption word then .error .misuse
    else do takeWords name none (← draft.accept option word) rest
  | none, draft, word :: rest =>
    if word == "--" then rest.foldlM takeWord draft
    else if isOption word then do
      let (draft, waiting) ← draft.takeOption name.options (some name) word
      takeWords name waiting draft rest
    else do takeWords name none (← draft.takeWord word) rest

/-- The command that the values make up, if none is missing. -/
def command? (draft : Draft) : CommandName → Option Command
  | .layout => do
      pure (.layout (← draft.payload) (draft.perspective.getD .technical))
  | .sequence => do
      pure (.sequence (← draft.payload) (← draft.root))
  | .render => do
      pure (.render (← draft.payload) (← draft.out) (draft.perspective.getD .technical) draft.root
        (draft.width.getD 1600) (draft.height.getD 1000))

end Draft

namespace Arguments

/-- The help that is asked for by words behind `help`. -/
def helpTopic : List String → Stop
  | [] => .help none
  | [word] =>
    match CommandName.ofText? word with
    | some topic => .help (some topic)
    | none => .misuse
  | _ => .misuse

/-- Reads the words of a command line.  The settings may be named in front of
the command or behind it; the latter wins. -/
def parseFrom : Option OptionSpec → Draft → List String → Except Stop Arguments
  | _, _, [] => .error .misuse
  | some option, draft, word :: rest =>
    if Draft.isOption word then .error .misuse
    else do parseFrom none (← draft.accept option word) rest
  | none, draft, word :: rest =>
    if Draft.isOption word then do
      let (draft, waiting) ← draft.takeOption [.config] none word
      parseFrom waiting draft rest
    else if word == "help" then .error (helpTopic rest)
    else
      match CommandName.ofText? word with
      | none => .error .misuse
      | some name => do
          let given ← Draft.takeWords name none {} rest
          match given.command? name with
          | some command => .ok ⟨given.config.or draft.config, command⟩
          | none => .error .misuse

/-- Reads a command line. -/
def parse (words : List String) : Except Stop Arguments :=
  parseFrom none {} words

end Arguments

end CodeAtlas
