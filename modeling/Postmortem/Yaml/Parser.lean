import Postmortem.Yaml.Document
set_option autoImplicit false

/-!
# Yaml: parsers

Little is asked of a parser of documents: the document that a text holds, or why it holds none, and what there is to say
about a text that is malformed.  So another parser can take the place of the one of this library.
-/

namespace Postmortem.Yaml

/-- A parser of documents.  By default it is the one of this library, which has nothing more to say. -/
structure Parser where
  /-- the document that a text holds, or why it holds none -/
  parse : String → Except Fault Document := Document.ofText
  /-- what is said about a malformed text, if anything is -/
  complaint : String → Option String := fun _ => none

end Postmortem.Yaml
