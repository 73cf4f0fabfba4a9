import Postmortem.Proofs.Directives
import Postmortem.Proofs.Scalars
import Postmortem.Yaml.Layout
set_option autoImplicit false

/-!
# Tokenizing: the faults of a stream of tokens

However a text is cut into tokens, the cursor stays within the text, and a fault at which the stream breaks is borne
out by the text.  The layout adds only malformed texts to the faults of the readers that it calls.
-/

namespace Postmortem.Yaml

/-! ## Streams -/

/-- A stream that can break with faults of a certain sort only. -/
def Tokens.Only (bad : Fault → Prop) : Tokens → Prop
  | .next _ rest => rest.Only bad
  | .finished => True
  | .broken fault => bad fault

theorem Tokens.only_prepend {bad : Fault → Prop} {front : List Token} {stream : Tokens} (h : stream.Only bad) :
    (Tokens.prepend front stream).Only bad := by
  induction front with
  | nil => exact h
  | cons token rest ih => exact ih

/-! ## Candidates -/

namespace Levels

theorem giveUp_yields (levels : Levels) : Yields (fun _ => True) (· = .malformed) levels.giveUp := by
  unfold giveUp
  split
  · split
    · exact .error rfl
    · exact .ok trivial
  · exact .ok trivial

theorem giveUpStale_yields (here : Position) (levels : Levels) :
    Yields (fun _ => True) (· = .malformed) (levels.giveUpStale here) := by
  induction levels with
  | nil => exact .ok trivial
  | cons level outer ih =>
    unfold giveUpStale
    split
    · rename_i fault hfault
      exact .error (ih.of_error hfault)
    · rename_i freed rest _
      split
      · exact .ok trivial
      · rename_i k
        split
        · have hgive := giveUp_yields (some k :: rest)
          split
          · rename_i fault hfault
            exact .error (hgive.of_error hfault)
          · exact .ok trivial
        · exact .ok trivial

end Levels

/-! ## Layouts -/

namespace Layout

/-- A step stops within a text, or reports a fault that the text bears out. -/
abbrev Stays (text : List Char) (o : Except Fault Layout) : Prop :=
  Yields (fun s => s.cursor.rest <:+ text) (Due text) o

variable {text : List Char} {s : Layout}

theorem giveUp_stays (hs : s.cursor.rest <:+ text) : Stays text s.giveUp := by
  have hgive := s.levels.giveUp_yields
  unfold giveUp
  split
  · rename_i fault hfault
    obtain rfl := hgive.of_error hfault
    exact .error .malformed
  · exact .ok hs

theorem giveUpStale_stays (hs : s.cursor.rest <:+ text) : Stays text s.giveUpStale := by
  have hgive := s.levels.giveUpStale_yields s.cursor.position
  unfold giveUpStale
  split
  · rename_i fault hfault
    obtain rfl := hgive.of_error hfault
    exact .error .malformed
  · exact .ok hs

theorem closeBlocks_cursor (s : Layout) (column : Option Nat) : (s.closeBlocks column).cursor = s.cursor := by
  unfold closeBlocks
  split <;> rfl

theorem openBlock_cursor (s : Layout) (column : Nat) (token : Token) :
    (s.openBlock column token).cursor = s.cursor := by
  unfold openBlock
  split <;> rfl

theorem noteCandidate_stays (hs : s.cursor.rest <:+ text) : Stays text s.noteCandidate := by
  have hgive := giveUp_stays hs
  unfold noteCandidate
  split
  · split
    · rename_i fault hfault
      exact .error (hgive.of_error hfault)
    · rename_i after hok
      have hafter : after.cursor.rest <:+ text := hgive.of_ok hok
      exact .ok hafter
  · exact .ok hs

theorem skipToToken_suffix (comment : Bool) (text : List Char) (here : Position) :
    (skipToToken comment text here).2.rest <:+ text := by
  induction text generalizing comment here with
  | nil => exact List.suffix_rfl
  | cons x more ih =>
    have hmore : more <:+ x :: more := List.suffix_cons x more
    unfold skipToToken
    split
    · exact (ih _ _).trans hmore
    · split
      · exact (ih _ _).trans hmore
      · split
        · exact (ih _ _).trans hmore
        · split
          · exact (ih _ _).trans hmore
          · exact List.suffix_rfl

theorem advance_suffix (s : Layout) : s.advance.cursor.rest <:+ s.cursor.rest :=
  skipToToken_suffix false s.cursor.rest s.cursor.position

/-! ## One token -/

theorem leaveContent_stays (hs : s.cursor.rest <:+ text) : Stays text s.leaveContent := by
  have hgive : Stays text (s.closeBlocks none).giveUp := by
    apply giveUp_stays
    rw [closeBlocks_cursor]
    exact hs
  unfold leaveContent
  split
  · rename_i fault hfault
    exact .error (hgive.of_error hfault)
  · rename_i after hok
    have hafter : after.cursor.rest <:+ text := hgive.of_ok hok
    exact .ok hafter

theorem readDirective_stays (hs : s.cursor.rest <:+ text) : Stays text s.readDirective := by
  have hleave := leaveContent_stays hs
  unfold readDirective
  split
  · rename_i fault hfault
    exact .error (hleave.of_error hfault)
  · rename_i after hok
    have hread := readDirective_reads (hleave.of_ok hok)
    split
    · rename_i fault hfault
      exact .error (hread.of_error hfault)
    · rename_i content below hcontent
      exact .ok (within hread hcontent)

theorem readDocumentMark_stays (token : Token) (hs : s.cursor.rest <:+ text) :
    Stays text (s.readDocumentMark token) := by
  have hleave := leaveContent_stays hs
  unfold readDocumentMark
  split
  · rename_i fault hfault
    exact .error (hleave.of_error hfault)
  · rename_i after hok
    exact .ok ((after.cursor.skip_suffix 3).trans (hleave.of_ok hok))

theorem openBracket_stays (token : Token) (hs : s.cursor.rest <:+ text) : Stays text (s.openBracket token) := by
  have hnote := noteCandidate_stays hs
  unfold openBracket
  split
  · rename_i fault hfault
    exact .error (hnote.of_error hfault)
  · rename_i after hok
    exact .ok (after.cursor.next_suffix.trans (hnote.of_ok hok))

theorem closeBracket_stays (token : Token) (hs : s.cursor.rest <:+ text) : Stays text (s.closeBracket token) := by
  have hgive := giveUp_stays hs
  unfold closeBracket
  split
  · rename_i fault hfault
    exact .error (hgive.of_error hfault)
  · rename_i after hok
    split
    · exact .ok (after.cursor.next_suffix.trans (hgive.of_ok hok))
    · exact .error .malformed

theorem readComma_stays (hs : s.cursor.rest <:+ text) : Stays text s.readComma := by
  have hgive := giveUp_stays hs
  unfold readComma
  split
  · rename_i fault hfault
    exact .error (hgive.of_error hfault)
  · rename_i after hok
    exact .ok (after.cursor.next_suffix.trans (hgive.of_ok hok))

/-- Opening a block where the context allows it leaves the cursor where it is. -/
theorem opened_cursor (s : Layout) (token : Token) :
    (if s.context == .block then s.openBlock s.cursor.column token else s).cursor = s.cursor := by
  split
  · exact openBlock_cursor s _ _
  · rfl

theorem readHyphen_stays (hs : s.cursor.rest <:+ text) : Stays text s.readHyphen := by
  unfold readHyphen
  split
  · exact .error .malformed
  · have hopened := opened_cursor s .blockSequenceStart
    dsimp only
    generalize (if s.context == .block then s.openBlock s.cursor.column .blockSequenceStart else s) = opened
      at hopened ⊢
    have hgive : Stays text opened.giveUp := giveUp_stays (by rw [hopened]; exact hs)
    split
    · rename_i fault hfault
      exact .error (hgive.of_error hfault)
    · rename_i after hok
      exact .ok (after.cursor.next_suffix.trans (hgive.of_ok hok))

theorem readQuestionMark_stays (hs : s.cursor.rest <:+ text) : Stays text s.readQuestionMark := by
  unfold readQuestionMark
  split
  · exact .error .malformed
  · have hopened := opened_cursor s .blockMappingStart
    dsimp only
    generalize (if s.context == .block then s.openBlock s.cursor.column .blockMappingStart else s) = opened
      at hopened ⊢
    have hgive : Stays text opened.giveUp := giveUp_stays (by rw [hopened]; exact hs)
    split
    · rename_i fault hfault
      exact .error (hgive.of_error hfault)
    · rename_i after hok
      exact .ok (after.cursor.next_suffix.trans (hgive.of_ok hok))

theorem readLoneColon_stays (hs : s.cursor.rest <:+ text) : Stays text s.readLoneColon := by
  unfold readLoneColon
  split
  · exact .error .malformed
  · have hopened := opened_cursor s .blockMappingStart
    dsimp only
    generalize (if s.context == .block then s.openBlock s.cursor.column .blockMappingStart else s) = opened
      at hopened ⊢
    have hgive : Stays text opened.giveUp := giveUp_stays (by rw [hopened]; exact hs)
    split
    · rename_i fault hfault
      exact .error (hgive.of_error hfault)
    · rename_i after hok
      have hafter : after.cursor.rest <:+ text := hgive.of_ok hok
      exact .ok hafter

theorem readColon_stays (hs : s.cursor.rest <:+ text) : Stays text s.readColon := by
  unfold readColon
  dsimp only
  split
  · rename_i fault hfault
    split at hfault
    · cases hfault
    · exact .error ((readLoneColon_stays hs).of_error hfault)
  · rename_i after hok
    have hafter : after.cursor.rest <:+ text := by
      split at hok
      · obtain rfl := Except.ok.inj hok
        exact hs
      · exact (readLoneColon_stays hs).of_ok hok
    exact .ok (after.cursor.next_suffix.trans hafter)

theorem readNodePart_stays {read : Step Token} (hread : ∀ c : Cursor, c.rest <:+ text → Reads text (read c))
    (hs : s.cursor.rest <:+ text) : Stays text (s.readNodePart read) := by
  have hnote := noteCandidate_stays hs
  unfold readNodePart
  split
  · rename_i fault hfault
    exact .error (hnote.of_error hfault)
  · rename_i after hok
    have hpart := hread after.cursor (hnote.of_ok hok)
    split
    · rename_i fault hfault
      exact .error (hpart.of_error hfault)
    · rename_i token behind hbehind
      exact .ok (within hpart hbehind)

theorem readPlain_stays (hs : s.cursor.rest <:+ text) : Stays text s.readPlain := by
  have hnote := noteCandidate_stays hs
  unfold readPlain
  split
  · rename_i fault hfault
    exact .error (hnote.of_error hfault)
  · rename_i after hok
    exact .ok ((Plain.read_suffix after.context after.inside after.cursor).trans (hnote.of_ok hok))

theorem readBlockScalar_stays (folded : Bool) (hs : s.cursor.rest <:+ text) :
    Stays text (s.readBlockScalar folded) := by
  have hgive := giveUp_stays hs
  unfold readBlockScalar
  split
  · rename_i fault hfault
    exact .error (hgive.of_error hfault)
  · rename_i after hok
    have hread := Block.read_reads folded after.inside (hgive.of_ok hok)
    split
    · rename_i fault hfault
      exact .error (hread.of_error hfault)
    · rename_i content below hbelow
      exact .ok (within hread hbelow)

theorem asToken_reads {β : Type} {token : β → Token} {read : Step β} {c : Cursor} (h : Reads text (read c)) :
    Reads text (asToken token read c) := by
  unfold asToken
  split
  · rename_i fault hfault
    exact .error (h.of_error hfault)
  · rename_i content behind hok
    exact .ok (within h hok)

theorem stays_ite {p : Prop} [Decidable p] {a b : Except Fault Layout} (ha : Stays text a) (hb : Stays text b) :
    Stays text (if p then a else b) := by
  split
  · exact ha
  · exact hb

theorem readToken_stays (x : Char) (hs : s.cursor.rest <:+ text) : Stays text (s.readToken x) := by
  have hname : ∀ c : Cursor, c.rest <:+ text → Reads text (readAnchorName c.next) := by
    intro c hc
    exact readAnchorName_reads (c.next_suffix.trans hc)
  unfold readToken
  refine stays_ite (readDirective_stays hs) ?_
  refine stays_ite (readDocumentMark_stays _ hs) ?_
  refine stays_ite (openBracket_stays _ hs) (stays_ite (openBracket_stays _ hs) ?_)
  refine stays_ite (closeBracket_stays _ hs) (stays_ite (closeBracket_stays _ hs) ?_)
  refine stays_ite (readComma_stays hs) ?_
  refine stays_ite (readHyphen_stays hs) ?_
  refine stays_ite (readQuestionMark_stays hs) ?_
  refine stays_ite (readColon_stays hs) ?_
  refine stays_ite (readNodePart_stays (fun c hc => asToken_reads (hname c hc)) hs) ?_
  refine stays_ite (readNodePart_stays (fun c hc => asToken_reads (hname c hc)) hs) ?_
  refine stays_ite (readNodePart_stays (fun _ hc => asToken_reads (readTag_reads hc)) hs) ?_
  refine stays_ite (readBlockScalar_stays _ hs) (stays_ite (readBlockScalar_stays _ hs) ?_)
  refine stays_ite (readNodePart_stays (fun _ hc => asToken_reads (Quoted.read_reads _ hc)) hs) ?_
  refine stays_ite (readNodePart_stays (fun _ hc => asToken_reads (Quoted.read_reads _ hc)) hs) ?_
  exact stays_ite (readPlain_stays hs) (.error .malformed)

/-! ## All tokens -/

theorem step_yields (hs : s.cursor.rest <:+ text) :
    Yields (fun result => ∀ after ∈ result.1, after.cursor.rest <:+ text) (Due text) s.step := by
  have hstale := giveUpStale_stays (s.advance_suffix.trans hs)
  unfold step
  split
  · rename_i fault hfault
    exact .error (hstale.of_error hfault)
  · rename_i fresh hok
    have hclosed : (fresh.closeBlocks (some fresh.cursor.column)).cursor.rest <:+ text := by
      rw [closeBlocks_cursor]
      exact hstale.of_ok hok
    dsimp only
    split
    · exact .ok (by simp)
    · rename_i x hx
      have htoken := readToken_stays x hclosed
      split
      · rename_i fault hfault
        exact .error (htoken.of_error hfault)
      · rename_i after hafter
        exact .ok (by simpa using htoken.of_ok hafter)

theorem finish_only (s : Layout) : s.finish.Only (Due text) := by
  have hgive := (s.closeBlocks none).levels.giveUp_yields
  unfold finish
  dsimp only
  split
  · rename_i fault hfault
    obtain rfl := hgive.of_error hfault
    exact Due.malformed
  · exact Tokens.only_prepend trivial

theorem run_only (fuel : Nat) (hs : s.cursor.rest <:+ text) : (run fuel s).Only (Due text) := by
  induction fuel generalizing s with
  | zero => exact Due.malformed
  | succ fuel ih =>
    have hstep := step_yields hs
    unfold run
    split
    · rename_i fault hfault
      exact hstep.of_error hfault
    · exact finish_only _
    · rename_i after before hok
      have hafter : after.cursor.rest <:+ text := hstep.of_ok hok after rfl
      have hstale := giveUpStale_stays hafter
      split
      · rename_i fault hfault
        exact hstale.of_error hfault
      · rename_i fresh hfresh
        have hrest : fresh.cursor.rest <:+ text := hstale.of_ok hfresh
        exact Tokens.only_prepend (ih hrest)

end Layout

/-- The stream of tokens of a text breaks only with faults that the text bears out. -/
theorem Tokens.ofText_only (text : String) : (Tokens.ofText text).Only (Due text.toList) := by
  unfold Tokens.ofText
  split
  · apply Layout.run_only
    unfold Layout.ofText
    dsimp only
    split
    · exact (Cursor.next_suffix _)
    · exact List.suffix_rfl
  · exact Due.malformed

end Postmortem.Yaml
