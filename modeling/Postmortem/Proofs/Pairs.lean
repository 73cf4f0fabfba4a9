import Mathlib.Data.List.Forall2
set_option autoImplicit false

/-!
# Lists in pairs

What follows for the elements of two lists that are related in pairs, one list element by element to the other.
-/

namespace Postmortem

variable {α β γ : Type} {r : α → β → Prop} {list : List α} {other : List β}

theorem exists_of_forall₂_left (h : List.Forall₂ r list other) {x : α} (hx : x ∈ list) : ∃ y ∈ other, r x y := by
  induction h with
  | nil => exact absurd hx (by simp)
  | cons hfirst _ ih =>
    rcases List.mem_cons.mp hx with rfl | hx
    · exact ⟨_, List.mem_cons_self, hfirst⟩
    · obtain ⟨y, hy, hr⟩ := ih hx
      exact ⟨y, List.mem_cons_of_mem _ hy, hr⟩

theorem exists_of_forall₂_right (h : List.Forall₂ r list other) {y : β} (hy : y ∈ other) : ∃ x ∈ list, r x y :=
  exists_of_forall₂_left h.flip hy

theorem getElem?_of_forall₂ (h : List.Forall₂ r list other) {i : Nat} {x : α} (hx : list[i]? = some x) :
    ∃ y, other[i]? = some y ∧ r x y := by
  obtain ⟨hi, rfl⟩ := List.getElem?_eq_some_iff.mp hx
  have hlength : i < other.length := h.length_eq ▸ hi
  exact ⟨other[i], List.getElem?_eq_getElem hlength, h.get hi hlength⟩

theorem rel_head? (h : List.Forall₂ r list other) : Option.Rel r list.head? other.head? := by
  cases h with
  | nil => exact .none
  | cons hfirst _ => exact .some hfirst

theorem forall₂_zipIdx (h : List.Forall₂ r list other) (start : Nat) :
    List.Forall₂ (fun x y => r x.1 y.1 ∧ x.2 = y.2) (list.zipIdx start) (other.zipIdx start) := by
  induction h generalizing start with
  | nil => exact .nil
  | cons hfirst _ ih => exact .cons ⟨hfirst, rfl⟩ (ih (start + 1))

theorem forall₂_trans {s : β → γ → Prop} {t : α → γ → Prop} (htrans : ∀ x y z, r x y → s y z → t x z) {last : List γ}
    (h : List.Forall₂ r list other) (h' : List.Forall₂ s other last) : List.Forall₂ t list last :=
  List.forall₂_iff_get.mpr ⟨h.length_eq.trans h'.length_eq, fun _ hi hk =>
    have hj := h.length_eq ▸ hi
    htrans _ _ _ (h.get hi hj) (h'.get hj hk)⟩

end Postmortem
