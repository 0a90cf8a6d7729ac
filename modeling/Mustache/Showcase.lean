import Mustache.Compilation

/-!
# Sample templates

Five small templates of a page with a list of things to do, as a program would declare them.
-/

namespace Mustache.Showcase

/-- An item of the list. -/
def todo : Text :=
  ("  <li id=\"todo-\x7b\x7bid\x7d\x7d\">\x7b\x7b#done\x7d\x7d<s>\x7b\x7blabel\x7d\x7d</s>" ++
    "\x7b\x7b/done\x7d\x7d\x7b\x7b^done\x7d\x7d\x7b\x7blabel\x7d\x7d\x7b\x7b/done\x7d\x7d</li>\n")
    |>.toList

/-- The list with its title; the items are the partial `todo`. -/
def todoList : Text :=
  ("<h1>\x7b\x7btitle\x7d\x7d</h1>\n<ul>\n  \x7b\x7b#todos\x7d\x7d\n  \x7b\x7b>todo\x7d\x7d\n" ++
    "  \x7b\x7b/todos\x7d\x7d\n  \x7b\x7b^todos\x7d\x7d\n  <li>Nothing to do</li>\n" ++
    "  \x7b\x7b/todos\x7d\x7d\n</ul>\n")
    |>.toList

/-- A button. -/
def button : Text :=
  "<button type=\"button\" data-id=\"\x7b\x7bid\x7d\x7d\">\x7b\x7blabel\x7d\x7d</button>\n".toList

/-- A greeting by two names. -/
def hello : Text :=
  "\n        <p>Hello \x7b\x7bfirstname\x7d\x7d \x7b\x7blastname\x7d\x7d</p>\n    ".toList

/-- A list on one line, with a partial that nothing provides. -/
def todoListInline : Text :=
  ("<ul>\x7b\x7b#items\x7d\x7d<li>\x7b\x7b.\x7d\x7d</li>\x7b\x7b/items\x7d\x7d</ul>" ++
    "\x7b\x7b>todo\x7d\x7d")
    |>.toList

/-- The files among the samples. -/
def files : Memory :=
  ((Memory.mk []).insert ⟨"templates/todo.mustache".toList⟩ todo)
    |>.insert ⟨"templates/todo_list.mustache".toList⟩ todoList
    |>.insert ⟨"template/button.mustache".toList⟩ button

/-- The sample template of a file. -/
def ofFile (path : String) : Except Error Template :=
  (compilePath {} files.source ⟨path.toList⟩).result

/-- The sample template of a name. -/
def find? (name : String) : Option (Except Error Template) :=
  match name with
  | "todo" => some (ofFile "templates/todo.mustache")
  | "todo_list" => some (ofFile "templates/todo_list.mustache")
  | "button" => some (ofFile "template/button.mustache")
  | "hello_first_last" => some (Template.parse hello)
  | "todo_list_inline" => some (Template.parse todoListInline)
  | _ => none

end Mustache.Showcase
