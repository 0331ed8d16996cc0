import CodeAtlas.Command.Arguments

/-!
# Help

The texts that tell how the program is used.
-/

namespace CodeAtlas

namespace Help

/-- A text of several lines, each with its end. -/
def lines (texts : List String) : String :=
  String.join (texts.map fun text => text ++ "\n")

def overview : String :=
  lines [
    "Usage: codemap [OPTIONS] <COMMAND>",
    "",
    "Commands:",
    "  layout    Lay out a graph payload and print node positions and edge routes as JSON",
    "  sequence  Print the call sequence rooted at a method as JSON",
    "  render    Render a PNG snapshot of the diagram",
    "  help      Print this message or the help of the given subcommand(s)",
    "",
    "Options:",
    "  -c, --config <CONFIG>  Engine configuration (JSON); defaults apply when omitted",
    "  -h, --help             Print help",
    "  -V, --version          Print version"]

def layout : String :=
  lines [
    "Lay out a graph payload and print node positions and edge routes as JSON",
    "",
    "Usage: codemap layout [OPTIONS] <PAYLOAD>",
    "",
    "Arguments:",
    "  <PAYLOAD>  Query response with `nodes` and `relationships`",
    "",
    "Options:",
    "  -c, --config <CONFIG>            Engine configuration (JSON); defaults apply when omitted",
    "  -p, --perspective <PERSPECTIVE>  [default: technical]",
    "  -h, --help                       Print help"]

def sequence : String :=
  lines [
    "Print the call sequence rooted at a method as JSON",
    "",
    "Usage: codemap sequence [OPTIONS] --root <ROOT> <PAYLOAD>",
    "",
    "Arguments:",
    "  <PAYLOAD>  ",
    "",
    "Options:",
    "  -c, --config <CONFIG>  Engine configuration (JSON); defaults apply when omitted",
    "  -r, --root <ROOT>      Method id to start from",
    "  -h, --help             Print help"]

def render : String :=
  lines [
    "Render a PNG snapshot of the diagram",
    "",
    "Usage: codemap render [OPTIONS] --out <OUT> <PAYLOAD>",
    "",
    "Arguments:",
    "  <PAYLOAD>  ",
    "",
    "Options:",
    "  -c, --config <CONFIG>            Engine configuration (JSON); defaults apply when omitted",
    "  -o, --out <OUT>                  Output file; `.png` is appended when there is no extension",
    "  -p, --perspective <PERSPECTIVE>  [default: technical]",
    "  -r, --root <ROOT>                Render the call sequence from this method instead of the graph",
    "      --width <WIDTH>              [default: 1600]",
    "      --height <HEIGHT>            [default: 1000]",
    "  -h, --help                       Print help"]

/-- The help on a command, or on all of them. -/
def text : Option CommandName → String
  | none => overview
  | some .layout => layout
  | some .sequence => sequence
  | some .render => render

def version : String :=
  lines ["codemap-cli 0.1.0"]

end Help

end CodeAtlas
