import Mustache.Text.Basic

/-!
# Lambdas

A lambda is given the source of the section that it is bound to and may ask, any number of times,
for a text to be rendered where the section stands. What it does is a `Reply`: the text it ends
with, or a text to render and how it goes on with the result. So a lambda can be run by whatever
answers its questions, and two lambdas are the same only if they are the same object.
-/

namespace Mustache

/-- What a lambda does. -/
inductive Reply
  /-- It ends with a text. -/
  | done (text : Text)
  /-- It asks for a text to be rendered, and goes on with the answer. -/
  | ask (text : Text) (answer : Text → Reply)

/-- Goes on with what a reply ends with. -/
def Reply.bind : Reply → (Text → Reply) → Reply
  | .done text, next => next text
  | .ask text answer, next => .ask text fun result => (answer result).bind next

/-- The end of a reply whose questions are answered by a function. -/
def Reply.answerWith (render : Text → Text) : Reply → Text
  | .done text => text
  | .ask text answer => (answer (render text)).answerWith render

/-- A value that computes the text of a section. Reference: `Lambda`. -/
structure Lambda where
  /-- What tells the lambda from every other one. -/
  identity : Nat
  /-- The name under which its calls are recorded. -/
  label : Option Text
  /-- What it does with the source of a section. -/
  respond : Text → Reply

/-- The text of a lambda that is called with a source and a way to render text. Reference:
`Lambda.call`. -/
def Lambda.call (l : Lambda) (source : Text) (render : Text → Text) : Text :=
  (l.respond source).answerWith render

end Mustache
