import Offside.Files.FileSet
import Offside.Lex.Run

/-!
# Sample documents

Documents that show the layout rule at work: nesting, blank lines, the longer terminator, comments,
and an end without a terminator. They are files of one directory and are read by their paths in it.
-/

namespace Offside

structure Sample where
  name : String
  text : String

namespace Sample

def component : Sample where
  name := "010-component.view.tree"
  text :=
    "$my_todo_app $mol_page\n" ++
    "\ttitle @ \\Todo list\n" ++
    "\tbody /\n" ++
    "\t\t<= Add $mol_button_minor\n" ++
    "\t\t\tclick? <=> add? null\n" ++
    "\t\t\thint @ \\Add an item\n" ++
    "\t\t<= Items $mol_list\n" ++
    "\t\t\trows <= item_rows /\n" ++
    "\tfoot /\n"

def blankLines : Sample where
  name := "020-blank-lines.view.tree"
  text :=
    "$my_card $mol_view\n" ++
    "\n" ++
    "\tsub /\n" ++
    "\t\t\n" ++
    "\t\t<= Title $mol_paragraph\n" ++
    "\n" ++
    "\t\t<= Body $mol_text\n" ++
    "\t\n" ++
    "\tminimal_height 120\n"

def crlf : Sample where
  name := "030-crlf.view.tree"
  text :=
    "$my_link $mol_link\r\n" ++
    "\turi \\https://example.org\r\n" ++
    "\tsub /\r\n" ++
    "\t\t<= label \\Open\r\n"

def comments : Sample where
  name := "040-comments.view.tree"
  text :=
    "# Settings screen\n" ++
    "$my_settings $mol_page\n" ++
    "\t# header area\n" ++
    "\ttitle @ \\Settings\n" ++
    "\t\t# stray deep comment\n" ++
    "\tbody /\n" ++
    "\t\t<= Theme $mol_switch\n"

def unterminated : Sample where
  name := "050-unterminated.view.tree"
  text :=
    "$my_icon $mol_icon\n" ++
    "\tpath \\M0 0h24v24H0z\n" ++
    "\t\tview_box \\0 0 24 24"

def all : List Sample := [component, blankLines, crlf, comments, unterminated]

def directory : String := "docs/samples"

def files : FileSet := .ofList (all.map fun s => (Path.join directory s.name, s.text.toUTF8))

def read? (path : String) : Option String :=
  match files.find (Path.join directory path) with
  | .file bytes | .device bytes => String.fromUTF8? bytes
  | _ => none

end Sample

def structureKinds (config : Config) (text : String) : List Kind :=
  (tokenize text.toList config).structureKinds

end Offside
