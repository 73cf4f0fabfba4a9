import Postmortem.Proofs.Alike
import Postmortem.Proofs.Format
set_option autoImplicit false

/-!
# Same keys: maps without the order of their keys

The entries of a map may be put in another order in which those of equal keys still follow each other as before.  Of
such an order nothing is left if a map is told key by key: the values under each key are the same ones.  This has no
direction, and it is all that a format asks about, so a node that conforms does so in any order.
-/

namespace Postmortem

open Postmortem.Node

/-! ## Orders of entries -/

namespace Node

/-- A shape with the entries of a map in another order, which leaves the values under each key in theirs. -/
inductive Shape.Permuted {α : Type} (graph : Graph α) : Shape α → Shape α → Prop where
  | same (shape : Shape α) : Permuted graph shape shape
  | map {entries entries' : List (α × α)} (perm : entries'.Perm entries)
      (stable : ∀ name, valuesUnder graph name entries' = valuesUnder graph name entries) :
      Permuted graph (.map entries) (.map entries')

/-- An order of entries is told by the keys that there are. -/
theorem Shape.Permuted.of_keys {α : Type} {graph : Graph α} {entries entries' : List (α × α)}
    (perm : entries'.Perm entries)
    (stable : ∀ name ∈ keysOf graph entries, valuesUnder graph name entries' = valuesUnder graph name entries) :
    Shape.Permuted graph (.map entries) (.map entries') := by
  refine .map perm ?_
  intro name
  by_cases hname : name ∈ keysOf graph entries
  · exact stable name hname
  · have hnone : ∀ list : List (α × α), list.Perm entries → valuesUnder graph name list = [] := by
      intro list hlist
      apply List.eq_nil_iff_forall_not_mem.mpr
      intro child hchild
      obtain ⟨entry, hentry, hkey, _⟩ := mem_valuesUnder.mp hchild
      exact hname (mem_keysOf.mpr ⟨entry, hlist.mem_iff.mp hentry, hkey⟩)
    rw [hnone entries' perm, hnone entries (.refl _)]

variable {α β : Type}

/-- Nodes of two graphs that look the same but for the order of keys, as do the nodes that they lead to. -/
def Reordered (graph : Graph α) (graph' : Graph β) (r : α → β → Prop) : Prop :=
  ∀ node node', r node node' → ∃ shape, (graph node).Permuted graph shape ∧ shape.Matches r (graph' node')

/-! ## Maps key by key -/

/-- Two lists of entries with the same keys and with values that are related under each of them. -/
structure KeyAlike (graph : Graph α) (graph' : Graph β) (r : α → β → Prop) (entries : List (α × α))
    (entries' : List (β × β)) : Prop where
  plain : (∀ entry ∈ entries, (keyOf graph entry.1).isSome) ↔ ∀ entry ∈ entries', (keyOf graph' entry.1).isSome
  keys : (keysOf graph entries).Perm (keysOf graph' entries')
  values : ∀ name, List.Forall₂ r (valuesUnder graph name entries) (valuesUnder graph' name entries')

/-- Two shapes that are told the same: maps by their keys. -/
inductive Shape.KeyMatches (graph : Graph α) (graph' : Graph β) (r : α → β → Prop) : Shape α → Shape β → Prop where
  | scalar (text : String) : KeyMatches graph graph' r (.scalar text) (.scalar text)
  | sequence {items : List α} {items' : List β} (pairs : List.Forall₂ r items items') :
      KeyMatches graph graph' r (.sequence items) (.sequence items')
  | map {entries : List (α × α)} {entries' : List (β × β)} (alike : KeyAlike graph graph' r entries entries') :
      KeyMatches graph graph' r (.map entries) (.map entries')

theorem Shape.KeyMatches.text_eq {graph : Graph α} {graph' : Graph β} {r : α → β → Prop} {shape : Shape α}
    {shape' : Shape β} (h : shape.KeyMatches graph graph' r shape') (target : Target) :
    shape.text target = shape'.text target := by
  cases h <;> rfl

/-- Nodes of two graphs that are told the same key by key.  Unlike an order of entries, this has no direction. -/
def SameByKeys (graph : Graph α) (graph' : Graph β) (r : α → β → Prop) : Prop :=
  ∀ node node', r node node' → (graph node).KeyMatches graph graph' r (graph' node')

variable {graph : Graph α} {graph' : Graph β} {r : α → β → Prop}

/-- A graph with the entries of some of its maps in other orders looks the same but for these. -/
theorem reordered_of_permuted {graph graph' : Graph α} (h : ∀ node, (graph node).Permuted graph (graph' node)) :
    Reordered graph graph' Eq := by
  rintro node _ rfl
  exact ⟨graph' node, h node, Shape.matches_self fun child _ => rfl⟩

theorem Reordered.keyOf_eq (h : Reordered graph graph' r) {node : α} {node' : β} (hnode : r node node') :
    keyOf graph node = keyOf graph' node' := by
  obtain ⟨shape, hperm, hmatch⟩ := h node node' hnode
  unfold keyOf
  generalize graph node = first at hperm
  generalize graph' node' = last at hmatch
  cases hperm with
  | same => cases hmatch <;> rfl
  | map => cases hmatch; rfl

/-- Entries that are related in pairs are the same key by key. -/
theorem Reordered.keyAlike_of_pairs (h : Reordered graph graph' r) {entries : List (α × α)} {entries' : List (β × β)}
    (hpairs : List.Forall₂ (fun entry entry' => r entry.1 entry'.1 ∧ r entry.2 entry'.2) entries entries') :
    KeyAlike graph graph' r entries entries' := by
  induction hpairs with
  | nil => exact ⟨by simp, .refl _, fun name => .nil⟩
  | @cons entry entry' rest rest' hpair _ ih =>
    have hkey : keyOf graph entry.1 = keyOf graph' entry'.1 := h.keyOf_eq hpair.1
    refine ⟨?_, ?_, ?_⟩
    · rw [List.forall_mem_cons, List.forall_mem_cons, hkey]
      exact and_congr_right fun _ => ih.plain
    · rw [keysOf, keysOf, List.filterMap_cons, List.filterMap_cons, hkey]
      cases keyOf graph' entry'.1 with
      | none => exact ih.keys
      | some name => exact ih.keys.cons name
    · intro name
      rw [valuesUnder, valuesUnder, List.filter_cons, List.filter_cons, hkey]
      split
      · exact .cons hpair.2 (ih.values name)
      · exact ih.values name

/-- Nodes that look the same but for the order of keys are the same key by key. -/
theorem Reordered.sameByKeys (h : Reordered graph graph' r) : SameByKeys graph graph' r := by
  intro node node' hnode
  obtain ⟨shape, hperm, hmatch⟩ := h node node' hnode
  generalize graph node = first at hperm
  generalize graph' node' = last at hmatch
  cases hmatch with
  | scalar text =>
    cases hperm
    exact .scalar text
  | sequence pairs =>
    cases hperm
    exact .sequence pairs
  | map pairs =>
    have halike := h.keyAlike_of_pairs pairs
    cases hperm with
    | same => exact .map halike
    | map perm stable =>
      refine .map ⟨?_, ?_, ?_⟩
      · rw [← halike.plain]
        exact forall_congr' fun entry => by rw [perm.mem_iff]
      · exact (perm.symm.filterMap _).trans halike.keys
      · intro name
        rw [← stable name]
        exact halike.values name

theorem KeyAlike.symm {entries : List (α × α)} {entries' : List (β × β)} (h : KeyAlike graph graph' r entries entries') :
    KeyAlike graph' graph (flip r) entries' entries :=
  ⟨h.plain.symm, h.keys.symm, fun name => (h.values name).flip⟩

theorem SameByKeys.symm (h : SameByKeys graph graph' r) : SameByKeys graph' graph (flip r) := by
  intro node' node hnode
  have hmatch := h node node' hnode
  generalize graph node = first at hmatch
  generalize graph' node' = last at hmatch
  cases hmatch with
  | scalar text => exact .scalar text
  | sequence pairs => exact .sequence pairs.flip
  | map alike => exact .map alike.symm

namespace SameByKeys

theorem scalar (h : SameByKeys graph graph' r) {node : α} {node' : β} (hnode : r node node') {text : String}
    (hshape : graph node = .scalar text) : graph' node' = .scalar text := by
  have hmatch := h node node' hnode
  rw [hshape] at hmatch
  generalize graph' node' = last at hmatch
  cases hmatch
  rfl

theorem sequence (h : SameByKeys graph graph' r) {node : α} {node' : β} (hnode : r node node') {items : List α}
    (hshape : graph node = .sequence items) :
    ∃ items', graph' node' = .sequence items' ∧ List.Forall₂ r items items' := by
  have hmatch := h node node' hnode
  rw [hshape] at hmatch
  generalize graph' node' = last at hmatch
  cases hmatch with
  | sequence pairs => exact ⟨_, rfl, pairs⟩

theorem map (h : SameByKeys graph graph' r) {node : α} {node' : β} (hnode : r node node') {entries : List (α × α)}
    (hshape : graph node = .map entries) :
    ∃ entries', graph' node' = .map entries' ∧ KeyAlike graph graph' r entries entries' := by
  have hmatch := h node node' hnode
  rw [hshape] at hmatch
  generalize graph' node' = last at hmatch
  cases hmatch with
  | map alike => exact ⟨_, rfl, alike⟩

theorem keyOf_eq (h : SameByKeys graph graph' r) {node : α} {node' : β} (hnode : r node node') :
    keyOf graph node = keyOf graph' node' := by
  have hmatch := h node node' hnode
  unfold keyOf
  generalize graph node = first at hmatch
  generalize graph' node' = last at hmatch
  cases hmatch <;> rfl

end SameByKeys

/-! ## What conforms -/

namespace SameByKeys

/-- The last sequences under a key have elements that are related in pairs. -/
theorem rel_lastItems (h : SameByKeys graph graph' r) {entries : List (α × α)} {entries' : List (β × β)}
    (halike : KeyAlike graph graph' r entries entries') (name : String) :
    List.Forall₂ r (lastItems graph name entries) (lastItems graph' name entries') := by
  have hlast := rel_head? (List.forall₂_reverse_iff.mpr (halike.values name))
  rw [List.head?_reverse, List.head?_reverse] at hlast
  unfold lastItems
  generalize (valuesUnder graph name entries).getLast? = last at hlast
  generalize (valuesUnder graph' name entries').getLast? = last' at hlast
  cases hlast with
  | none => exact .nil
  | @some node node' hnode =>
    have hmatch := h node node' hnode
    dsimp only
    unfold itemsOf
    generalize graph node = first at hmatch
    generalize graph' node' = second at hmatch
    cases hmatch with
    | scalar text => exact .nil
    | sequence pairs => exact pairs
    | map alike => exact .nil

/-- What has to hold of a map as a whole is told by its keys. -/
theorem whole (h : SameByKeys graph graph' r) {form : Form} {entries : List (α × α)}
    {entries' : List (β × β)} (halike : KeyAlike graph graph' r entries entries') (hwhole : Whole graph form entries) :
    Whole graph' form entries' := by
  by_cases hdevice : form = .entity .device
  · subst hdevice
    rcases hwhole with hempty | hempty
    · have hitems := h.rel_lastItems halike "IncompleteCommandBuffers"
      rw [hempty] at hitems
      exact Or.inl (List.forall₂_nil_left_iff.mp hitems)
    · have hitems := h.rel_lastItems halike "AllCommandBuffers"
      rw [hempty] at hitems
      exact Or.inr (List.forall₂_nil_left_iff.mp hitems)
  · unfold Whole
    split
    · exact absurd rfl hdevice
    · trivial

/-- What conforms does so whatever the order of keys. -/
theorem conforms (h : SameByKeys graph graph' r) {limit : Option Nat} {form : Form} {node : α} {node' : β}
    (hnode : r node node') (hconforms : Conforms graph limit form node) : Conforms graph' limit form node' := by
  induction hconforms generalizing node' with
  | anything node => exact .anything node'
  | scalar shape writes => exact .scalar (h.scalar hnode shape) writes
  | sequence shape _ ih =>
    obtain ⟨items', hshape, hpairs⟩ := h.sequence hnode shape
    refine .sequence hshape ?_
    intro child' hchild'
    obtain ⟨child, hchild, hr⟩ := exists_of_forall₂_right hpairs hchild'
    exact ih child hchild hr
  | @map form node entries kind shape known distinct _ whole ih =>
    obtain ⟨entries', hshape, halike⟩ := h.map hnode shape
    refine .map kind hshape ?_ ?_ ?_ (h.whole halike whole)
    · intro entry' hentry'
      have hplain : ∀ entry ∈ entries, (keyOf graph entry.1).isSome := by
        intro entry hentry
        obtain ⟨name, _, hname, _⟩ := known entry hentry
        rw [keyOf_eq_some_iff.mpr hname]
        rfl
      obtain ⟨name, hname⟩ := Option.isSome_iff_exists.mp (halike.plain.mp hplain entry' hentry')
      have hname : graph' entry'.1 = .scalar name := keyOf_eq_some_iff.mp hname
      -- The key is one of the first map too, which has no unknown keys.
      have hkey : name ∈ keysOf graph entries := halike.keys.mem_iff.mpr (mem_keysOf.mpr ⟨entry', hentry', hname⟩)
      obtain ⟨entry, hentry, hown⟩ := mem_keysOf.mp hkey
      obtain ⟨other, inner, hother, hknown⟩ := known entry hentry
      obtain rfl := Shape.scalar.inj (hown.symm.trans hother)
      exact ⟨name, inner, hname, hknown⟩
    · intro hsettings
      exact halike.keys.nodup_iff.mp (distinct hsettings)
    · intro entry' hentry' name inner hname hknown
      have hvalue : entry'.2 ∈ valuesUnder graph' name entries' := mem_valuesUnder.mpr ⟨entry', hentry', hname, rfl⟩
      obtain ⟨child, hchild, hr⟩ := exists_of_forall₂_right (halike.values name) hvalue
      obtain ⟨entry, hentry, hown, rfl⟩ := mem_valuesUnder.mp hchild
      exact ih entry hentry name inner hown hknown hr

theorem conforms_iff (h : SameByKeys graph graph' r) {limit : Option Nat} {form : Form} {node : α}
    {node' : β} (hnode : r node node') : Conforms graph limit form node ↔ Conforms graph' limit form node' := by
  constructor
  · exact h.conforms hnode
  · have hback : flip r node' node := hnode
    exact h.symm.conforms hback

end SameByKeys

end Node

end Postmortem
