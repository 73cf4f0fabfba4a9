import Postmortem.Proofs.Tokenizing
import Postmortem.Yaml.Document
set_option autoImplicit false

/-!
# Composing: the faults of a document

A composer fails with a malformed text or with the fault at which its tokens break, and hands on a stream that breaks
no other way.  Composers that take another one are sound when that one is, and the six that take each other are sound
at every depth.
-/

namespace Postmortem.Yaml.Document

open Postmortem.Node

/-! ## Drafts -/

/-- An outcome that brings no faults but certain ones, neither now nor from the tokens that it leaves. -/
abbrev Composes {β : Type} (bad : Fault → Prop) (o : Except Fault (β × Draft)) : Prop :=
  Yields (fun result => result.2.tokens.Only bad) bad o

/-- A composer that brings no faults but certain ones if the tokens bring no others. -/
def Composer.Sound {β : Type} (bad : Fault → Prop) (compose : Composer β) : Prop :=
  ∀ d : Draft, d.tokens.Only bad → Composes bad (compose d)

theorem behind {β : Type} {bad : Fault → Prop} {o : Except Fault (β × Draft)} {value : β} {d : Draft}
    (h : Composes bad o) (ho : o = .ok (value, d)) : d.tokens.Only bad := by
  subst ho
  cases h with
  | ok h => exact h

section

variable {bad : Fault → Prop} {d : Draft}

theorem Draft.peek_yields (hd : d.tokens.Only bad) : Yields (fun _ => True) bad d.peek := by
  unfold Draft.peek Tokens.peek
  cases htokens : d.tokens with
  | next token rest => exact .ok trivial
  | finished => exact .ok trivial
  | broken fault =>
    rw [htokens] at hd
    exact .error hd

theorem Draft.advance_only (hd : d.tokens.Only bad) : d.advance.tokens.Only bad := by
  unfold Draft.advance
  split
  · rename_i token rest htokens
    rw [htokens] at hd
    exact hd
  · exact hd

theorem Draft.add_tokens (d : Draft) (name : Option String) (shape : Shape Nat) :
    (d.add name shape).2.tokens = d.tokens := rfl

theorem Draft.add_composes (name : Option String) (shape : Shape Nat) (hd : d.tokens.Only bad) :
    Composes bad (.ok (d.add name shape)) := by
  have hadd : (d.add name shape).2.tokens.Only bad := by
    rw [Draft.add_tokens]
    exact hd
  exact .ok hadd

end

/-! ## Parts of nodes -/

section

variable {bad : Fault → Prop} {node : Composer Nat}

theorem readProperties_sound : Composer.Sound bad readProperties := by
  intro d hd
  have hpeek := Draft.peek_yields hd
  have hnext := Draft.advance_only hd
  have hpeek' := Draft.peek_yields hnext
  have hnext' := Draft.advance_only hnext
  unfold readProperties
  split
  · rename_i fault hfault
    exact .error (hpeek.of_error hfault)
  · dsimp only
    split
    · rename_i fault hfault
      exact .error (hpeek'.of_error hfault)
    · exact .ok hnext'
    · exact .ok hnext
  · dsimp only
    split
    · rename_i fault hfault
      exact .error (hpeek'.of_error hfault)
    · exact .ok hnext'
    · exact .ok hnext
  · exact .ok hd

theorem nodeUnless_sound (test : Option Token → Bool) (hnode : Composer.Sound bad node) :
    Composer.Sound bad (nodeUnless test node) := by
  intro d hd
  have hpeek : Yields (fun _ => True) bad (nextIs d test) := by
    have hpeek := Draft.peek_yields hd
    unfold nextIs
    split
    · rename_i fault hfault
      exact .error (hpeek.of_error hfault)
    · exact .ok trivial
  unfold nodeUnless
  split
  · rename_i fault hfault
    exact .error (hpeek.of_error hfault)
  · exact Draft.add_composes _ _ hd
  · exact hnode d hd

theorem valueOf_sound (test : Option Token → Bool) (hnode : Composer.Sound bad node) :
    Composer.Sound bad (valueOf test node) := by
  intro d hd
  have hpeek := Draft.peek_yields hd
  unfold valueOf
  split
  · rename_i fault hfault
    exact .error (hpeek.of_error hfault)
  · exact nodeUnless_sound test hnode _ (Draft.advance_only hd)
  · exact Draft.add_composes _ _ hd

theorem skipComma_yields (hbad : bad .malformed) (first : Bool) (close : Token) {d : Draft} (hd : d.tokens.Only bad) :
    Yields (fun after => after.tokens.Only bad) bad (skipComma first close d) := by
  have hpeek := Draft.peek_yields hd
  unfold skipComma
  split
  · exact .ok hd
  · split
    · rename_i fault hfault
      exact .error (hpeek.of_error hfault)
    · exact .ok (Draft.advance_only hd)
    · split
      · exact .ok hd
      · exact .error hbad

theorem entryOf_sound (endsKey endsValue : Option Token → Bool) (hnode : Composer.Sound bad node) :
    Composer.Sound bad (entryOf endsKey endsValue node) := by
  intro d hd
  have hkey := nodeUnless_sound endsKey hnode d.advance (Draft.advance_only hd)
  unfold entryOf
  split
  · rename_i fault hfault
    exact .error (hkey.of_error hfault)
  · rename_i key after hok
    have hvalue := valueOf_sound endsValue hnode after (behind hkey hok)
    split
    · rename_i fault hfault
      exact .error (hvalue.of_error hfault)
    · rename_i value stop hstop
      exact .ok (behind hvalue hstop)

theorem flowMappingPart_sound (hnode : Composer.Sound bad node) : Composer.Sound bad (flowMappingPart node) := by
  intro d hd
  have hpeek := Draft.peek_yields hd
  have hkey := hnode d hd
  unfold flowMappingPart
  split
  · rename_i fault hfault
    exact .error (hpeek.of_error hfault)
  · exact entryOf_sound _ _ hnode d hd
  · split
    · rename_i fault hfault
      exact .error (hkey.of_error hfault)
    · rename_i key after hok
      have hafter := behind hkey hok
      have hend := Draft.peek_yields hafter
      split
      · rename_i fault hfault
        exact .error (hend.of_error hfault)
      · exact .ok hafter

theorem flowSequencePart_sound (hnode : Composer.Sound bad node) : Composer.Sound bad (flowSequencePart node) := by
  intro d hd
  have hpeek := Draft.peek_yields hd
  have hentry : Composes bad (flowEntryOf .flowSequenceEnd node d) := entryOf_sound _ _ hnode d hd
  unfold flowSequencePart
  split
  · rename_i fault hfault
    exact .error (hpeek.of_error hfault)
  · split
    · rename_i fault hfault
      exact .error (hentry.of_error hfault)
    · rename_i entry after hok
      exact Draft.add_composes _ _ (behind hentry hok)
  · exact hnode d hd

theorem withMore_sound {β : Type} {part : Composer β} {more : Composer (List β)} (hpart : Composer.Sound bad part)
    (hmore : Composer.Sound bad more) : Composer.Sound bad (withMore part more) := by
  intro d hd
  have hfirst := hpart d hd
  unfold withMore
  split
  · rename_i fault hfault
    exact .error (hfirst.of_error hfault)
  · rename_i first after hok
    have hothers := hmore after (behind hfirst hok)
    split
    · rename_i fault hfault
      exact .error (hothers.of_error hfault)
    · rename_i others stop hstop
      exact .ok (behind hothers hstop)

theorem collectionOf_sound {β : Type} {parts : Composer (List β)} (name : Option String)
    (shape : List β → Shape Nat) (hparts : Composer.Sound bad parts) :
    Composer.Sound bad (collectionOf name shape parts) := by
  intro d hd
  have hread := hparts (d.add name (shape [])).2 (by rw [Draft.add_tokens]; exact hd)
  unfold collectionOf
  dsimp only
  split
  · rename_i fault hfault
    exact .error (hread.of_error hfault)
  · rename_i all after hok
    have hafter := behind hread hok
    exact .ok hafter

/-! ## Nodes -/

variable {handles : List String} {fuel : Nat}

/-- The composers that take each other are sound at a depth. -/
structure SoundAt (bad : Fault → Prop) (handles : List String) (fuel : Nat) : Prop where
  node : ∀ place, Composer.Sound bad (readNode handles fuel place)
  content : ∀ head name, Composer.Sound bad (readContent handles fuel head name)
  blockItems : ∀ place, Composer.Sound bad (readBlockItems handles fuel place)
  blockEntries : Composer.Sound bad (readBlockEntries handles fuel)
  flowItems : ∀ first, Composer.Sound bad (readFlowItems handles fuel first)
  flowEntries : ∀ first, Composer.Sound bad (readFlowEntries handles fuel first)

theorem readNode_sound (hbad : bad .malformed) (below : SoundAt bad handles fuel) (place : Place) :
    Composer.Sound bad (readNode handles (fuel + 1) place) := by
  intro d hd
  have hpeek := Draft.peek_yields hd
  have hproperties := readProperties_sound d hd
  unfold readNode
  split
  · rename_i fault hfault
    exact .error (hpeek.of_error hfault)
  · split
    · exact .ok (Draft.advance_only hd)
    · exact .error hbad
  · split
    · rename_i fault hfault
      exact .error (hproperties.of_error hfault)
    · rename_i properties after hok
      have hafter := behind hproperties hok
      have hhead := Draft.peek_yields hafter
      split
      · split
        · rename_i fault hfault
          exact .error (hhead.of_error hfault)
        · split
          · exact .error hbad
          · split
            · exact .error hbad
            · exact below.content _ _ after hafter
      · exact .error hbad

theorem readContent_sound (below : SoundAt bad handles fuel) (head : Head) (name : Option String) :
    Composer.Sound bad (readContent handles (fuel + 1) head name) := by
  intro d hd
  have hnext := Draft.advance_only hd
  cases head with
  | scalar text => exact Draft.add_composes _ _ hnext
  | empty => exact Draft.add_composes _ _ hd
  | blockSequence => exact collectionOf_sound name Shape.sequence (below.blockItems .block) _ hnext
  | indentlessSequence => exact collectionOf_sound name Shape.sequence (below.blockItems .entry) _ hd
  | blockMapping => exact collectionOf_sound name Shape.map below.blockEntries _ hnext
  | flowSequence => exact collectionOf_sound name Shape.sequence (below.flowItems true) _ hnext
  | flowMapping => exact collectionOf_sound name Shape.map (below.flowEntries true) _ hnext

theorem readBlockItems_sound (hbad : bad .malformed) (below : SoundAt bad handles fuel) (place : Place) :
    Composer.Sound bad (readBlockItems handles (fuel + 1) place) := by
  intro d hd
  have hpeek := Draft.peek_yields hd
  have hnext := Draft.advance_only hd
  unfold readBlockItems
  split
  · rename_i fault hfault
    exact .error (hpeek.of_error hfault)
  · have hitem := nodeUnless_sound (endsBlockItem place) (below.node .block)
    exact withMore_sound hitem (below.blockItems place) _ hnext
  · split
    · exact .ok hd
    · split
      · exact .ok hnext
      · exact .error hbad

theorem readBlockEntries_sound (hbad : bad .malformed) (below : SoundAt bad handles fuel) :
    Composer.Sound bad (readBlockEntries handles (fuel + 1)) := by
  intro d hd
  have hpeek := Draft.peek_yields hd
  unfold readBlockEntries
  split
  · rename_i fault hfault
    exact .error (hpeek.of_error hfault)
  · exact withMore_sound (entryOf_sound _ _ (below.node .entry)) below.blockEntries d hd
  · exact .ok (Draft.advance_only hd)
  · exact .error hbad

theorem readFlowItems_sound (hbad : bad .malformed) (below : SoundAt bad handles fuel) (first : Bool) :
    Composer.Sound bad (readFlowItems handles (fuel + 1) first) := by
  intro d hd
  have hcomma := skipComma_yields hbad first .flowSequenceEnd hd
  unfold readFlowItems
  split
  · rename_i fault hfault
    exact .error (hcomma.of_error hfault)
  · rename_i after hok
    have hafter := hcomma.of_ok hok
    have hpeek := Draft.peek_yields hafter
    split
    · rename_i fault hfault
      exact .error (hpeek.of_error hfault)
    · exact .ok (Draft.advance_only hafter)
    · exact withMore_sound (flowSequencePart_sound (below.node .flow)) (below.flowItems false) after hafter

theorem readFlowEntries_sound (hbad : bad .malformed) (below : SoundAt bad handles fuel) (first : Bool) :
    Composer.Sound bad (readFlowEntries handles (fuel + 1) first) := by
  intro d hd
  have hcomma := skipComma_yields hbad first .flowMappingEnd hd
  unfold readFlowEntries
  split
  · rename_i fault hfault
    exact .error (hcomma.of_error hfault)
  · rename_i after hok
    have hafter := hcomma.of_ok hok
    have hpeek := Draft.peek_yields hafter
    split
    · rename_i fault hfault
      exact .error (hpeek.of_error hfault)
    · exact .ok (Draft.advance_only hafter)
    · exact withMore_sound (flowMappingPart_sound (below.node .flow)) (below.flowEntries false) after hafter

theorem soundAt (hbad : bad .malformed) (handles : List String) (fuel : Nat) : SoundAt bad handles fuel := by
  induction fuel with
  | zero =>
    exact {
      node := fun _ _ _ => .error hbad
      content := fun _ _ _ _ => .error hbad
      blockItems := fun _ _ _ => .error hbad
      blockEntries := fun _ _ => .error hbad
      flowItems := fun _ _ _ => .error hbad
      flowEntries := fun _ _ _ => .error hbad }
  | succ fuel ih =>
    exact {
      node := readNode_sound hbad ih
      content := readContent_sound ih
      blockItems := readBlockItems_sound hbad ih
      blockEntries := readBlockEntries_sound hbad ih
      flowItems := readFlowItems_sound hbad ih
      flowEntries := readFlowEntries_sound hbad ih }

end

/-! ## Whole documents -/

section

variable {bad : Fault → Prop}

theorem readDirectives_sound (hbad : bad .malformed) (fuel : Nat) (seen : Declarations) :
    Composer.Sound bad (readDirectives fuel seen) := by
  induction fuel generalizing seen with
  | zero => exact fun _ _ => .error hbad
  | succ fuel ih =>
    intro d hd
    have hpeek := Draft.peek_yields hd
    have hnext := Draft.advance_only hd
    unfold readDirectives
    split
    · rename_i fault hfault
      exact .error (hpeek.of_error hfault)
    · split
      · exact .error hbad
      · exact ih _ _ hnext
    · split
      · exact .error hbad
      · exact ih _ _ hnext
    · exact ih _ _ hnext
    · exact .ok hd

theorem skipDocumentEnds_yields (fuel : Nat) {d : Draft} (hd : d.tokens.Only bad) :
    Yields (fun after => after.tokens.Only bad) bad (skipDocumentEnds fuel d) := by
  induction fuel generalizing d with
  | zero => exact .ok hd
  | succ fuel ih =>
    have hpeek := Draft.peek_yields hd
    unfold skipDocumentEnds
    split
    · rename_i fault hfault
      exact .error (hpeek.of_error hfault)
    · exact ih (Draft.advance_only hd)
    · exact .ok hd

theorem readDocumentStart_sound (hbad : bad .malformed) (fuel : Nat) :
    Composer.Sound bad (readDocumentStart fuel) := by
  intro d hd
  have hdirectives := readDirectives_sound hbad fuel ⟨false, []⟩ d hd
  unfold readDocumentStart
  split
  · rename_i fault hfault
    exact .error (hdirectives.of_error hfault)
  · rename_i seen after hok
    have hafter := behind hdirectives hok
    have hpeek := Draft.peek_yields hafter
    split
    · rename_i fault hfault
      exact .error (hpeek.of_error hfault)
    · exact .ok (Draft.advance_only hafter)
    · exact .error hbad

theorem readEnd_yields (hbad : bad .malformed) (fuel : Nat) {d : Draft} (hd : d.tokens.Only bad) :
    Yields (fun _ => True) bad (readEnd fuel d) := by
  have hends := skipDocumentEnds_yields fuel hd
  unfold readEnd
  split
  · rename_i fault hfault
    exact .error (hends.of_error hfault)
  · rename_i after hok
    have hafter := hends.of_ok hok
    have hpeek := Draft.peek_yields hafter
    have hstart := readDocumentStart_sound hbad fuel after hafter
    split
    · rename_i fault hfault
      exact .error (hpeek.of_error hfault)
    · exact .ok trivial
    · split
      · rename_i fault hfault
        exact .error (hstart.of_error hfault)
      · exact .error hbad

theorem readRoot_sound (hbad : bad .malformed) (fuel : Nat) : Composer.Sound bad (readRoot fuel) := by
  intro d hd
  have hpeek := Draft.peek_yields hd
  have hstart := readDocumentStart_sound hbad fuel d hd
  unfold readRoot
  split
  case h_1 fault hfault => exact .error (hpeek.of_error hfault)
  case h_4 => exact (soundAt hbad commonHandles fuel).node .block d hd
  -- A document starts in the same way behind a directive and behind its mark.
  all_goals
    split
    · rename_i fault hfault
      exact .error (hstart.of_error hfault)
    · rename_i handles after hok
      exact nodeUnless_sound endsContent ((soundAt hbad handles fuel).node .block) after (behind hstart hok)

theorem ofTokens_yields (hbad : bad .malformed) {tokens : Tokens} (htokens : tokens.Only bad) :
    Yields (fun _ => True) bad (ofTokens tokens) := by
  have hpeek := Draft.peek_yields (d := ⟨tokens, #[], []⟩) htokens
  have hroot := readRoot_sound hbad (3 * tokens.length + 8) ⟨tokens, #[], []⟩ htokens
  unfold ofTokens
  dsimp only
  split
  · rename_i fault hfault
    exact .error (hpeek.of_error hfault)
  · exact .ok trivial
  · split
    · rename_i fault hfault
      exact .error (hroot.of_error hfault)
    · rename_i root after hok
      have hend := readEnd_yields hbad (3 * tokens.length + 8) (behind hroot hok)
      split
      · rename_i fault hfault
        exact .error (hend.of_error hfault)
      · exact .ok trivial

end

/-- Whatever keeps a text from being a document is borne out by the text. -/
theorem ofText_yields (text : String) : Yields (fun _ => True) (Due text.toList) (ofText text) :=
  ofTokens_yields .malformed (Tokens.ofText_only text)

end Postmortem.Yaml.Document
