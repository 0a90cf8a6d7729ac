import Mustache.Path

/-!
# Errors

A template is refused for one of the causes of `Cause`, at a point of its text; a file that cannot
be read is not found. A refusal quotes the end of the text before that point, at most
`excerptSize` bytes of it.
-/

namespace Mustache

/-- Why a text is not a template. Reference: the messages of `Error.malformed` and
`Error.unclosed`. -/
inductive Cause
  /-- A tag is opened and the text ends before it is closed. -/
  | unclosedTag
  /-- A tag that needs a content has none. -/
  | emptyTag
  /-- The content of a delimiter change does not name two delimiters. -/
  | invalidDelimiters (content : Text)
  /-- A section is closed under another key. -/
  | mismatched (opened closed : Text)
  /-- The text ends inside a section. -/
  | unclosedSection (key : Text)
  /-- A close tag stands outside every section. -/
  | unopened (key : Text)
  deriving DecidableEq

/-- The words for a cause. -/
def Cause.message : Cause → Text
  | .unclosedTag => "unclosed tag".toList
  | .emptyTag => "empty tag".toList
  | .invalidDelimiters content => "invalid delimiter change ".toList ++ content
  | .mismatched opened closed => "section ".toList ++ opened ++ " closed by ".toList ++ closed
  | .unclosedSection key => "unclosed section ".toList ++ key
  | .unopened key => "close tag for unopened section ".toList ++ key

/-- A cause, with the text that was read before it arose. -/
structure Fault where
  cause : Cause
  read : Text
  deriving DecidableEq

/-- The number of bytes that an excerpt has at most. Reference: `CAP_AT`. -/
def excerptSize : Nat := 32

/-- The longest end of a text that has at most `excerptSize` bytes. Reference: `rcap`. -/
def excerpt (read : Text) : Text :=
  Text.dropBytes (Text.size read - excerptSize) read

/-- A fault in words: its cause and an excerpt of the text before it. Reference:
`Error.malformed`. -/
def Fault.reason (fault : Fault) : Text :=
  fault.cause.message ++ " near \"".toList ++ excerpt fault.read ++ ['"']

/-- Why a template cannot be had. Reference: `Error`. -/
inductive Error
  /-- The text is not a template. -/
  | malformed (fault : Fault)
  /-- No text can be read at the path. -/
  | notFound (path : Path)
  deriving DecidableEq

/-- An error in words. Reference: the messages of `Error`. -/
def Error.message : Error → Text
  | .malformed fault => "malformed template: ".toList ++ fault.reason
  | .notFound path => "template not found: ".toList ++ path.text

end Mustache
