import Postmortem.Node.Shape
import Postmortem.Yaml.Layout
set_option autoImplicit false

/-!
# Yaml: documents

A document is the graph of nodes that its tokens describe.  An anchor names a node from its first token on, so an
alias inside a collection can lead back to the collection.  Tags are checked and then forgotten, and a scalar is its
text however it was written.
-/

namespace Postmortem.Yaml

open Postmortem.Node

/-- A composed document.  Nodes are known by their number. -/
structure Document where
  nodes : Array (Shape Nat)
  root : Option Nat
  deriving Repr

namespace Document

/-- The shape of each node of a document; a number that names no node has the shape of an empty scalar. -/
def graph (d : Document) : Graph Nat := fun n => (d.nodes[n]?).getD (.scalar "")

/-! ## Composition -/

/-- A document that is being composed. -/
structure Draft where
  /-- the tokens that have not been used -/
  tokens : Tokens
  nodes : Array (Shape Nat)
  /-- the named nodes, the latest first -/
  anchors : List (String × Nat)

/-- A composer takes the tokens of a part of the document. -/
abbrev Composer (α : Type) : Type := Draft → Except Fault (α × Draft)

namespace Draft

/-- The next token, which stays. -/
def peek (d : Draft) : Except Fault (Option Token) := d.tokens.peek

/-- The draft behind the next token. -/
def advance (d : Draft) : Draft :=
  match d.tokens with
  | .next _ rest => { d with tokens := rest }
  | _ => d

/-- Adds a node, which gets a name if there is one. -/
def add (d : Draft) (name : Option String) (shape : Shape Nat) : Nat × Draft :=
  let number := d.nodes.size
  let anchors :=
    match name with
    | some a => (a, number) :: d.anchors
    | none => d.anchors
  (number, { d with nodes := d.nodes.push shape, anchors := anchors })

/-- Gives a node its shape. -/
def complete (d : Draft) (number : Nat) (shape : Shape Nat) : Draft :=
  { d with nodes := d.nodes.setIfInBounds number shape }

/-- Adds a node that is written as nothing: an empty scalar. -/
def addEmpty (d : Draft) : Nat × Draft := d.add none (.scalar "")

end Draft

/-- The tag handles that need no declaration. -/
def commonHandles : List String := ["!", "!!"]

/-- Where a node stands, which decides the collections that can begin there. -/
inductive Place where
  /-- inside brackets -/
  | flow
  /-- a block collection may begin -/
  | block
  /-- a block collection may begin, and so may a sequence whose hyphens are not indented -/
  | entry
  deriving DecidableEq, Repr

/-- What stands before the content of a node. -/
structure Properties where
  anchor : Option String
  tag : Option (Option String)

/-- An anchor and a tag, at most one of each and in either order.  A second one stays in front of the content. -/
def readProperties : Composer Properties := fun d =>
  match d.peek with
  | .error fault => .error fault
  | .ok (some (.anchor name)) =>
    let d := d.advance
    match d.peek with
    | .error fault => .error fault
    | .ok (some (.tag handle)) => .ok (⟨some name, some handle⟩, d.advance)
    | .ok _ => .ok (⟨some name, none⟩, d)
  | .ok (some (.tag handle)) =>
    let d := d.advance
    match d.peek with
    | .error fault => .error fault
    | .ok (some (.anchor name)) => .ok (⟨some name, some handle⟩, d.advance)
    | .ok _ => .ok (⟨none, some handle⟩, d)
  | .ok _ => .ok (⟨none, none⟩, d)

/-- Whether a tag needs no handle or one that is declared. -/
def tagDeclared (handles : List String) : Option (Option String) → Bool
  | some (some handle) => handles.contains handle
  | _ => true

/-- What the content of a node begins with. -/
inductive Head where
  | scalar (text : String)
  | blockSequence
  | indentlessSequence
  | blockMapping
  | flowSequence
  | flowMapping
  | empty
  deriving DecidableEq, Repr

/-- The head of a node from the next token.  Nothing may stand for a node only behind properties. -/
def headOf (place : Place) (hasProperties : Bool) : Option Token → Option Head
  | some (.scalar text) => some (.scalar text)
  | some .flowSequenceStart => some .flowSequence
  | some .flowMappingStart => some .flowMapping
  | some .blockSequenceStart =>
    if place != .flow then some .blockSequence else if hasProperties then some .empty else none
  | some .blockMappingStart =>
    if place != .flow then some .blockMapping else if hasProperties then some .empty else none
  | some .blockEntry =>
    if place == .entry then some .indentlessSequence else if hasProperties then some .empty else none
  | _ => if hasProperties then some .empty else none

/-- Whether the next token is one of some. -/
def nextIs (d : Draft) (test : Option Token → Bool) : Except Fault Bool :=
  match d.peek with
  | .error fault => .error fault
  | .ok token => .ok (test token)

/-- Whether a token ends a value of a block that was left empty. -/
def endsBlockValue : Option Token → Bool
  | some .key | some .value | some .blockEnd => true
  | _ => false

/-- Whether a token ends an entry of a sequence that was left empty. -/
def endsBlockItem (place : Place) : Option Token → Bool
  | some .blockEntry | some .blockEnd => true
  | some .key | some .value => place == .entry
  | _ => false

/-- Whether a token ends a part of a collection in brackets that was left empty. -/
def endsFlowPart (close : Token) (token : Option Token) : Bool :=
  token == some .flowEntry || token == some close

/-- Whether a token ends a key in brackets that was left empty. -/
def endsFlowKey (close : Token) (token : Option Token) : Bool :=
  token == some .value || endsFlowPart close token

/-- The next node, or an empty scalar if the next token passes a test. -/
def nodeUnless (test : Option Token → Bool) (node : Composer Nat) : Composer Nat := fun d =>
  match nextIs d test with
  | .error fault => .error fault
  | .ok true => .ok d.addEmpty
  | .ok false => node d

/-- The value behind a key, which is an empty scalar if no colon follows. -/
def valueOf (test : Option Token → Bool) (node : Composer Nat) : Composer Nat := fun d =>
  match d.peek with
  | .error fault => .error fault
  | .ok (some .value) => nodeUnless test node d.advance
  | .ok _ => .ok d.addEmpty

/-- Moves behind the comma before a further part of a collection in brackets. -/
def skipComma (first : Bool) (close : Token) (d : Draft) : Except Fault Draft :=
  if first then .ok d
  else
    match d.peek with
    | .error fault => .error fault
    | .ok (some .flowEntry) => .ok d.advance
    | .ok token => if token == some close then .ok d else .error .malformed

/-- A key and its value, from the token that announces the key.  Each is an empty scalar before a token that passes
its test. -/
def entryOf (endsKey endsValue : Option Token → Bool) (node : Composer Nat) : Composer (Nat × Nat) := fun d =>
  match nodeUnless endsKey node d.advance with
  | .error fault => .error fault
  | .ok (key, d) =>
    match valueOf endsValue node d with
    | .error fault => .error fault
    | .ok (value, d) => .ok ((key, value), d)

/-- A key and its value in brackets. -/
def flowEntryOf (close : Token) (node : Composer Nat) : Composer (Nat × Nat) :=
  entryOf (endsFlowKey close) (endsFlowPart close) node

/-- A further part of a map in brackets: a key with its value, or a key alone. -/
def flowMappingPart (node : Composer Nat) : Composer (Nat × Nat) := fun d =>
  match d.peek with
  | .error fault => .error fault
  | .ok (some .key) => flowEntryOf .flowMappingEnd node d
  | .ok _ =>
    match node d with
    | .error fault => .error fault
    | .ok (key, d) =>
      match d.peek with
      | .error fault => .error fault
      | .ok _ =>
        let (value, d) := d.addEmpty
        .ok ((key, value), d)

/-- A further part of a sequence in brackets: a node, or a key with its value, which is a map of one entry. -/
def flowSequencePart (node : Composer Nat) : Composer Nat := fun d =>
  match d.peek with
  | .error fault => .error fault
  | .ok (some .key) =>
    match flowEntryOf .flowSequenceEnd node d with
    | .error fault => .error fault
    | .ok (entry, d) => .ok (d.add none (.map [entry]))
  | .ok _ => node d

/-- An entry of a block map. -/
def blockEntryOf (node : Composer Nat) : Composer (Nat × Nat) := entryOf endsBlockValue endsBlockValue node

/-- A part of a collection and the further ones behind it. -/
def withMore {α : Type} (part : Composer α) (more : Composer (List α)) : Composer (List α) := fun d =>
  match part d with
  | .error fault => .error fault
  | .ok (first, d) =>
    match more d with
    | .error fault => .error fault
    | .ok (others, d) => .ok (first :: others, d)

/-- A collection, which is added before its parts and gets its shape behind them. -/
def collectionOf {α : Type} (name : Option String) (shape : List α → Shape Nat) (parts : Composer (List α)) :
    Composer Nat := fun d =>
  let (number, d) := d.add name (shape [])
  match parts d with
  | .error fault => .error fault
  | .ok (all, d) => .ok (number, d.complete number (shape all))

mutual

/-- A node. -/
def readNode (handles : List String) : (fuel : Nat) → Place → Composer Nat
  | 0, _, _ => .error .malformed
  | fuel + 1, place, d =>
    match d.peek with
    | .error fault => .error fault
    | .ok (some (.alias name)) =>
      match d.anchors.lookup name with
      | some number => .ok (number, d.advance)
      | none => .error .malformed
    | .ok _ =>
      match readProperties d with
      | .error fault => .error fault
      | .ok (properties, d) =>
        if tagDeclared handles properties.tag then
          match d.peek with
          | .error fault => .error fault
          | .ok token =>
            match headOf place (properties.anchor.isSome || properties.tag.isSome) token with
            | none => .error .malformed
            | some head =>
              if properties.anchor.any fun a => (d.anchors.lookup a).isSome then .error .malformed
              else readContent handles fuel head properties.anchor d
        else .error .malformed

/-- The content of a node, behind its properties. -/
def readContent (handles : List String) : (fuel : Nat) → Head → Option String → Composer Nat
  | 0, _, _, _ => .error .malformed
  | fuel + 1, head, name, d =>
    match head with
    | .scalar text => .ok (d.advance.add name (.scalar text))
    | .empty => .ok (d.add name (.scalar ""))
    | .blockSequence => collectionOf name .sequence (readBlockItems handles fuel .block) d.advance
    | .indentlessSequence => collectionOf name .sequence (readBlockItems handles fuel .entry) d
    | .blockMapping => collectionOf name .map (readBlockEntries handles fuel) d.advance
    | .flowSequence => collectionOf name .sequence (readFlowItems handles fuel true) d.advance
    | .flowMapping => collectionOf name .map (readFlowEntries handles fuel true) d.advance

/-- The entries of a block sequence.  One whose hyphens are not indented ends at any other token, which stays. -/
def readBlockItems (handles : List String) : (fuel : Nat) → Place → Composer (List Nat)
  | 0, _, _ => .error .malformed
  | fuel + 1, place, d =>
    match d.peek with
    | .error fault => .error fault
    | .ok (some .blockEntry) =>
      withMore (nodeUnless (endsBlockItem place) (readNode handles fuel .block)) (readBlockItems handles fuel place)
        d.advance
    | .ok token =>
      if place == .entry then .ok ([], d)
      else if token == some .blockEnd then .ok ([], d.advance)
      else .error .malformed

/-- The entries of a block map. -/
def readBlockEntries (handles : List String) : (fuel : Nat) → Composer (List (Nat × Nat))
  | 0, _ => .error .malformed
  | fuel + 1, d =>
    match d.peek with
    | .error fault => .error fault
    | .ok (some .key) => withMore (blockEntryOf (readNode handles fuel .entry)) (readBlockEntries handles fuel) d
    | .ok (some .blockEnd) => .ok ([], d.advance)
    | .ok _ => .error .malformed

/-- The parts of a sequence in brackets. -/
def readFlowItems (handles : List String) : (fuel : Nat) → (first : Bool) → Composer (List Nat)
  | 0, _, _ => .error .malformed
  | fuel + 1, first, d =>
    match skipComma first .flowSequenceEnd d with
    | .error fault => .error fault
    | .ok d =>
      match d.peek with
      | .error fault => .error fault
      | .ok (some .flowSequenceEnd) => .ok ([], d.advance)
      | .ok _ => withMore (flowSequencePart (readNode handles fuel .flow)) (readFlowItems handles fuel false) d

/-- The parts of a map in brackets. -/
def readFlowEntries (handles : List String) : (fuel : Nat) → (first : Bool) → Composer (List (Nat × Nat))
  | 0, _, _ => .error .malformed
  | fuel + 1, first, d =>
    match skipComma first .flowMappingEnd d with
    | .error fault => .error fault
    | .ok d =>
      match d.peek with
      | .error fault => .error fault
      | .ok (some .flowMappingEnd) => .ok ([], d.advance)
      | .ok _ => withMore (flowMappingPart (readNode handles fuel .flow)) (readFlowEntries handles fuel false) d

end

/-! ## The whole text -/

/-- What the directives before a document declare. -/
structure Declarations where
  versionSeen : Bool
  handles : List String

/-- The directives before a document.  There is one version at most, which begins with 1, and each handle is
declared once. -/
def readDirectives : (fuel : Nat) → Declarations → Composer Declarations
  | 0, _, _ => .error .malformed
  | fuel + 1, seen, d =>
    match d.peek with
    | .error fault => .error fault
    | .ok (some (.directive (.version major))) =>
      if seen.versionSeen || major != 1 then .error .malformed
      else readDirectives fuel { seen with versionSeen := true } d.advance
    | .ok (some (.directive (.tagHandle handle))) =>
      if seen.handles.contains handle then .error .malformed
      else readDirectives fuel { seen with handles := handle :: seen.handles } d.advance
    | .ok (some (.directive .reserved)) => readDirectives fuel seen d.advance
    | .ok _ => .ok (seen, d)

/-- The draft behind the marks that end documents. -/
def skipDocumentEnds : (fuel : Nat) → Draft → Except Fault Draft
  | 0, d => .ok d
  | fuel + 1, d =>
    match d.peek with
    | .error fault => .error fault
    | .ok (some .documentEnd) => skipDocumentEnds fuel d.advance
    | .ok _ => .ok d

/-- The handles that a document may use, behind its directives and its opening mark. -/
def readDocumentStart (fuel : Nat) : Composer (List String) := fun d =>
  match readDirectives fuel ⟨false, []⟩ d with
  | .error fault => .error fault
  | .ok (seen, d) =>
    match d.peek with
    | .error fault => .error fault
    | .ok (some .documentStart) => .ok (seen.handles ++ commonHandles, d.advance)
    | .ok _ => .error .malformed

/-- Whether a token shows that a marked document has no content. -/
def endsContent : Option Token → Bool
  | none | some (.directive _) | some .documentStart | some .documentEnd => true
  | _ => false

/-- Accepts the end of the text behind a document; a second document is refused. -/
def readEnd (fuel : Nat) (d : Draft) : Except Fault Unit :=
  match skipDocumentEnds fuel d with
  | .error fault => .error fault
  | .ok d =>
    match d.peek with
    | .error fault => .error fault
    | .ok none => .ok ()
    | .ok _ =>
      match readDocumentStart fuel d with
      | .error fault => .error fault
      | .ok _ => .error .malformed

/-- The root node of a text that is not empty. -/
def readRoot (fuel : Nat) : Composer Nat := fun d =>
  match d.peek with
  | .error fault => .error fault
  | .ok (some (.directive _)) | .ok (some .documentStart) =>
    match readDocumentStart fuel d with
    | .error fault => .error fault
    | .ok (handles, d) => nodeUnless endsContent (readNode handles fuel .block) d
  | .ok _ => readNode commonHandles fuel .block d

/-- The only document among some tokens; without content there is no root. -/
def ofTokens (tokens : Tokens) : Except Fault Document :=
  let fuel := 3 * tokens.length + 8
  let draft : Draft := ⟨tokens, #[], []⟩
  match draft.peek with
  | .error fault => .error fault
  | .ok none => .ok ⟨#[], none⟩
  | .ok _ =>
    match readRoot fuel draft with
    | .error fault => .error fault
    | .ok (root, d) =>
      match readEnd fuel d with
      | .error fault => .error fault
      | .ok () => .ok ⟨d.nodes, some root⟩

/-- The document that a text holds. -/
def ofText (text : String) : Except Fault Document := ofTokens (Tokens.ofText text)

end Document

end Postmortem.Yaml
