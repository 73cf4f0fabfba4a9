import Postmortem.Proofs.Scanning
import Postmortem.Yaml.Directive
set_option autoImplicit false

/-!
# Directives: the faults of names, tags and directives

The readers of the small grammars stay within the text.  Only the numbers of a version have a fault of their own: a
run of digits that is too long.
-/

namespace Postmortem.Yaml

open Postmortem.Text

variable {text : List Char} {c : Cursor}

/-! ## Names and tags -/

theorem readName_reads (hc : c.rest <:+ text) : Reads text (readName c) := by
  unfold readName
  dsimp only
  split
  · exact .error .malformed
  · exact .ok ((c.span_suffix isNameChar).trans hc)

theorem readAnchorName_reads (hc : c.rest <:+ text) : Reads text (readAnchorName c) := by
  have hname := readName_reads hc
  unfold readAnchorName
  split
  · rename_i fault hfault
    exact .error (hname.of_error hfault)
  · rename_i name behind hok
    split
    · exact .ok (within hname hok)
    · exact .error .malformed

theorem skipAddress_yields (hc : c.rest <:+ text) :
    Yields (fun behind => behind.rest <:+ text) (Due text) (skipAddress c) := by
  unfold skipAddress
  dsimp only
  split
  · exact .error .malformed
  · exact .ok ((c.span_suffix isAddressChar).trans hc)

theorem readTagHandle_reads (hc : c.rest <:+ text) : Reads text (readTagHandle c) := by
  have hnext := c.next_suffix.trans hc
  unfold readTagHandle
  split
  · split
    · exact .ok hnext
    · dsimp only
      split
      · exact .ok ((Cursor.next_suffix _).trans ((c.next.span_suffix isNameChar).trans hnext))
      · exact .error .malformed
  · exact .error .malformed

theorem readTagPrefix_reads (hc : c.rest <:+ text) : Reads text (readTagPrefix c) := by
  unfold readTagPrefix
  split
  · exact readTagHandle_reads hc
  · exact .ok (c.next_suffix.trans hc)

theorem readTagContent_reads (hc : c.rest <:+ text) : Reads text (readTagContent c) := by
  have hnext := c.next_suffix.trans hc
  unfold readTagContent
  split
  · have haddress := skipAddress_yields (c.next.next_suffix.trans hnext)
    split
    · rename_i fault hfault
      exact .error (haddress.of_error hfault)
    · rename_i behind hok
      split
      · exact .ok (behind.next_suffix.trans (haddress.of_ok hok))
      · exact .error .malformed
  · split
    · exact .ok hnext
    · have hhandle := readTagPrefix_reads hc
      split
      · rename_i fault hfault
        exact .error (hhandle.of_error hfault)
      · rename_i name behind hok
        have haddress := skipAddress_yields (within hhandle hok)
        split
        · rename_i fault hfault
          exact .error (haddress.of_error hfault)
        · rename_i stop hstop
          exact .ok (haddress.of_ok hstop)

theorem readTag_reads (hc : c.rest <:+ text) : Reads text (readTag c) := by
  have hcontent := readTagContent_reads hc
  unfold readTag
  split
  · rename_i fault hfault
    exact .error (hcontent.of_error hfault)
  · rename_i handle behind hok
    split
    · exact .ok (within hcontent hok)
    · exact .error .malformed

/-! ## Directives -/

theorem readVersionNumber_reads (hc : c.rest <:+ text) : Reads text (readVersionNumber c) := by
  unfold readVersionNumber
  dsimp only
  split
  · exact .error .malformed
  · split
    · rename_i hlong
      obtain ⟨front, hfront⟩ := hc
      refine .error (.versionDigits ⟨front, (c.span Numeral.isDecimal).1, (c.span Numeral.isDecimal).2.rest, ?_,
        c.span_passes Numeral.isDecimal, rfl, hlong⟩)
      rw [← hfront, Cursor.span, Cursor.spanWith_append]
    · exact .ok ((c.span_suffix Numeral.isDecimal).trans hc)

theorem readVersion_reads (hc : c.rest <:+ text) : Reads text (readVersion c) := by
  have hmajor := readVersionNumber_reads (c.skipSpaces_suffix.trans hc)
  unfold readVersion
  split
  · rename_i fault hfault
    exact .error (hmajor.of_error hfault)
  · rename_i major stop hok
    split
    · have hminor := readVersionNumber_reads (stop.next_suffix.trans (within hmajor hok))
      split
      · rename_i fault hfault
        exact .error (hminor.of_error hfault)
      · rename_i minor behind hok
        split
        · exact .ok (within hminor hok)
        · exact .error .malformed
    · exact .error .malformed

theorem readHandleMeaning_reads (hc : c.rest <:+ text) : Reads text (readHandleMeaning c) := by
  have hhandle := readTagHandle_reads (c.skipSpaces_suffix.trans hc)
  unfold readHandleMeaning
  split
  · rename_i fault hfault
    exact .error (hhandle.of_error hfault)
  · rename_i handle stop hok
    split
    · have haddress := skipAddress_yields (stop.skipSpaces_suffix.trans (within hhandle hok))
      split
      · rename_i fault hfault
        exact .error (haddress.of_error hfault)
      · rename_i behind hok
        split
        · exact .ok (haddress.of_ok hok)
        · exact .error .malformed
    · exact .error .malformed

theorem readDirective_reads (hc : c.rest <:+ text) : Reads text (readDirective c) := by
  have hname := readName_reads (c.next_suffix.trans hc)
  unfold readDirective
  split
  · rename_i fault hfault
    exact .error (hname.of_error hfault)
  · rename_i name stop hok
    have hstop := within hname hok
    split
    · have hcontent : Reads text (if name == "YAML" then readVersion stop
          else if name == "TAG" then readHandleMeaning stop
          else .ok (.reserved, stop.spanLine.2)) := by
        split
        · exact readVersion_reads hstop
        · split
          · exact readHandleMeaning_reads hstop
          · exact .ok (stop.spanLine_suffix.trans hstop)
      dsimp only
      split
      · rename_i fault hfault
        exact .error (hcontent.of_error hfault)
      · rename_i directive behind hok
        have hline := behind.finishLine_yields
        split
        · rename_i fault hfault
          obtain rfl := hline.of_error hfault
          exact .error .malformed
        · rename_i below hbelow
          exact .ok ((hline.of_ok hbelow).trans (within hcontent hok))
    · exact .error .malformed

end Postmortem.Yaml
