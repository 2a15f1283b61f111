import Offside.Command.Arguments
import Offside.Lex.Run
import Offside.Settings.Loader
import Offside.Text.Hex
import Offside.Token.Listing

/-!
# The command

Tokenizes one file and prints the tokens. The arguments come first, then the settings, of which the
assignments are looked at before any file, and then the file itself. The command knows of files what
is at a path, and `paths` lists the paths that it may ask about.
-/

namespace Offside

namespace Command

structure Report where
  exit : UInt32 := 0
  output : String := ""
  errors : String := ""
deriving DecidableEq, Repr

def versionText : String := "viewtree 0.1.0\n"

def usageText : String := "Usage: viewtree [OPTIONS] [path]\n"

def helpText : String :=
  "Tokenize view.tree files with the indentation scanner\n\n" ++
  usageText ++
  "\nArguments:\n" ++
  "  [path]  Path to the view.tree file\n" ++
  "\nOptions:\n" ++
  "  -c, --config <config>  TOML configuration file layered over the defaults\n" ++
  "  -f, --format <format>  Output format (default: from configuration, token-simple) " ++
  "[possible values: " ++ ", ".intercalate (Format.all.map Format.name) ++ "]\n" ++
  "  -s, --set <KEY=VALUE>  Override a configuration key, e.g. scanner.same_level=true\n" ++
  "      --list-formats     List available output formats\n" ++
  "  -h, --help             Print help\n" ++
  "  -V, --version          Print version\n"

def formatsText : String :=
  "Available output formats:\n\n" ++ String.join (Format.all.map fun f => "  " ++ f.name ++ "\n")

inductive ReadError where
  | missing
  | directory
  | blocked
  | tooLong
  | notText
deriving DecidableEq, Repr

def ReadError.message : ReadError → String
  | missing => "No such file or directory (os error 2)"
  | directory => "Is a directory (os error 21)"
  | blocked => "Not a directory (os error 20)"
  | tooLong => "File name too long (os error 36)"
  | notText => "stream did not contain valid UTF-8"

def readSource (files : Files) (path : String) : Except ReadError (List Char) :=
  match files path with
  | .missing => .error .missing
  | .directory => .error .directory
  | .blocked => .error .blocked
  | .tooLong => .error .tooLong
  | .file bytes | .device bytes =>
    match String.fromUTF8? bytes with
    | some text => .ok text.toList
    | none => .error .notText

def loader (job : Job) : Except LoadError Loader := do
  let l := ({} : Loader).withLocalFile "."
  let l := match job.config with
    | some path => l.withFile path true
    | none => l
  let l ← job.assignments.foldlM (fun l a => l.withAssignment a) l
  match job.format with
  | some f => l.withFormat f
  | none => .ok l

def snapshotsText (o : Output) : String :=
  String.join (o.checkpoints.map fun p =>
    s!"@{p.offset} #{p.index} " ++ String.ofList (Hex.encode p.snapshot) ++ "\n")

def listing (settings : Settings) (source : List Char) (o : Output) : String :=
  let tokens := if settings.skipTrivia then o.tokens.filter (!·.token.isTrivia) else o.tokens
  match settings.format with
  | .simple => String.ofList (Listing.simple source tokens)
  | .json => Listing.indentedJson tokens ++ "\n"
  | .yaml => Listing.yaml tokens
  | .kinds => Listing.kinds tokens ++ "\n"
  | .snapshots => snapshotsText o

def warnings (path : String) (o : Output) : String :=
  String.join (o.diagnostics.map fun d => "warning: " ++ path ++ ": " ++ d.message ++ "\n")

/-- A path to a place that no list has is a fault of the caller, not of the settings. -/
def settingsFailed (e : LoadError) : Report where
  exit := if e = .noPlace then 101 else 1
  errors := "Configuration error: " ++ e.message ++ "\n"

def tokenizeFile (files : Files) (job : Job) : Report :=
  match (loader job).bind (·.build files) with
  | .error e => settingsFailed e
  | .ok settings =>
    match readSource files job.path with
    | .error e => { exit := 1, errors := "Error reading " ++ job.path ++ ": " ++ e.message ++ "\n" }
    | .ok source =>
      let o := tokenize source settings.scanner
      { output := listing settings source o, errors := warnings job.path o }

def run (files : Files) (args : List String) : Report :=
  match Request.ofArguments args with
  | .help => { output := helpText }
  | .version => { output := versionText }
  | .listFormats => { output := formatsText }
  | .misused => { exit := 2, errors := if args.isEmpty then helpText else usageText }
  | .tokenize job => tokenizeFile files job

def paths (args : List String) : List String :=
  match Request.ofArguments args with
  | .tokenize job =>
    let settings := Path.join "." Loader.localName :: job.config.toList
    job.path :: settings.flatMap Loader.candidates
  | _ => []

end Command

end Offside
