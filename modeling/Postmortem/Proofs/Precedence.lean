import Postmortem.Proofs.Reports
import Postmortem.Proofs.Unfolding
set_option autoImplicit false

/-!
# Precedence: a refusal is about what comes first

A document is refused for what is wrong first in its order.  On the way from the root to that place, all that stands
before a step conforms; and whatever stands behind the steps, the refusal is the same.  The first is read off the first
violation, which is taken apart into the way to a node and what is wrong with the node itself.  The second holds
because neither of the two looks behind the steps.
-/

namespace Postmortem

open Postmortem.Node

/-! ## The way to a violation -/

/-- Where the reading of a node stops. -/
inductive Stop where
  /-- at the node as a whole -/
  | node
  /-- at the key of an entry of a map, before the value is looked at -/
  | key (number : Nat)
  deriving DecidableEq, Repr

section

variable {α : Type} (graph : Graph α)

/-- An address leads from a node that has to be of a form to another one, and on the way everything that stands before
a step conforms: the entries before it may stand in the map that they are in, and the elements before it are of the form
that the sequence asks for. -/
inductive ClearWay (limit : Option Nat) : Form → α → Address → List Step → Form → α → Prop where
  | here (form : Form) (node : α) : ClearWay limit form node [] [] form node
  /-- to the value of an entry, whose own key is in order too -/
  | entry {form inner target : Form} {node key child place : α} {name : String} {front back : List (α × α)}
      {address : Address} {location : List Step} (shape : graph node = .map (front ++ (key, child) :: back))
      (before : EntriesConform graph limit form front) (isKey : graph key = .scalar name)
      (known : form.under name = some inner) (new : form = .settings → name ∉ keysOf graph front)
      (rest : ClearWay limit inner child address location target place) :
      ClearWay limit form node (.entry front.length :: address)
        (form.stepsTo name (valuesUnder graph name front).length ++ location) target place
  /-- to an element -/
  | element {item target : Form} {node child place : α} {front back : List α} {address : Address}
      {location : List Step} (shape : graph node = .sequence (front ++ child :: back))
      (before : ∀ other ∈ front, Conforms graph limit item other)
      (rest : ClearWay limit item child address location target place) :
      ClearWay limit (.sequence item) node (.element front.length :: address) (.index front.length :: location)
        target place

/-- What is wrong with a node itself, and where its reading stops.  The entries before a key that is refused may stand
in the map, and so may all entries of a device that is refused as a whole. -/
inductive OwnFault (limit : Option Nat) : Form → α → Cause → Stop → Prop where
  /-- the node is of another kind -/
  | shape {form : Form} {node : α} {kind : Kind} (asked : form.kind? = some kind)
      (other : (graph node).kind ≠ kind) :
      OwnFault limit form node (.wrongShape form.expected (graph node).kind) .node
  /-- the text of the scalar does not convert -/
  | scalar {form : Form} {node : α} {text : String} {cause : Cause} (shape : graph node = .scalar text)
      (misreads : Misreads limit form text cause) : OwnFault limit form node cause .node
  /-- a key is no scalar -/
  | oddKey {form : Form} {node key child : α} {front back : List (α × α)} (kind : form.kind? = some .map)
      (shape : graph node = .map (front ++ (key, child) :: back))
      (before : EntriesConform graph limit form front) (odd : (graph key).kind ≠ .scalar) :
      OwnFault limit form node (.wrongShape .scalarKey (graph key).kind) (.key front.length)
  /-- an entity has a key that is not in its table -/
  | unknownKey {e : Entity} {node key child : α} {name : String} {front back : List (α × α)}
      (shape : graph node = .map (front ++ (key, child) :: back))
      (before : EntriesConform graph limit (.entity e) front) (isKey : graph key = .scalar name)
      (unknown : e.format.lookup name = none) :
      OwnFault limit (.entity e) node (.unknownKey e name) (.key front.length)
  /-- a setting is given again -/
  | repeatedKey {node key child : α} {name : String} {front back : List (α × α)}
      (shape : graph node = .map (front ++ (key, child) :: back))
      (before : EntriesConform graph limit .settings front) (isKey : graph key = .scalar name)
      (again : name ∈ keysOf graph front) :
      OwnFault limit .settings node (.duplicateSetting name) (.key front.length)
  /-- a device has command buffers in both listings -/
  | bothListings {node : α} {entries : List (α × α)} (shape : graph node = .map entries)
      (entriesConform : EntriesConform graph limit (.entity .device) entries)
      (incomplete : lastItems graph "IncompleteCommandBuffers" entries ≠ [])
      (all : lastItems graph "AllCommandBuffers" entries ≠ []) :
      OwnFault limit (.entity .device) node
        (.bothListings (lastItems graph "IncompleteCommandBuffers" entries).length
          (lastItems graph "AllCommandBuffers" entries).length) .node

variable {graph}

/-- Only maps ask for something under a key. -/
theorem Form.kind?_of_under {form inner : Form} {name : String} (h : form.under name = some inner) :
    form.kind? = some .map := by
  cases form <;> simp_all [Form.under, Form.kind?]

theorem ClearWay.leads {limit : Option Nat} {form target : Form} {node place : α} {address : Address}
    {location : List Step} (h : ClearWay graph limit form node address location target place) :
    Leads graph form node address location target place := by
  induction h with
  | here form node => exact .here form node
  | entry shape before isKey known new rest ih => exact .entry shape isKey known ih
  | element shape before rest ih => exact .element shape ih

theorem OwnFault.firstViolation {limit : Option Nat} {form : Form} {node : α} {cause : Cause} {stop : Stop}
    (h : OwnFault graph limit form node cause stop) : FirstViolation graph limit form node cause [] [] := by
  cases h with
  | shape asked other => exact .shape asked other
  | scalar shape misreads => exact .scalar shape misreads
  | oddKey kind shape before odd => exact .oddKey kind shape before odd
  | unknownKey shape before isKey unknown => exact .unknownKey shape before isKey unknown
  | repeatedKey shape before isKey again => exact .repeatedKey shape before isKey again
  | bothListings shape entriesConform incomplete all => exact .bothListings shape entriesConform incomplete all

/-- The first violation below a node is what is wrong with a node itself to which the way is clear. -/
theorem firstViolation_iff_clearWay {limit : Option Nat} {form : Form} {node : α} {cause : Cause}
    {address : Address} {location : List Step} :
    FirstViolation graph limit form node cause address location ↔
      ∃ target place stop, ClearWay graph limit form node address location target place ∧
        OwnFault graph limit target place cause stop := by
  constructor
  · intro h
    induction h with
    | shape asked other => exact ⟨_, _, _, .here _ _, .shape asked other⟩
    | scalar shape misreads => exact ⟨_, _, _, .here _ _, .scalar shape misreads⟩
    | element shape before fault ih =>
      obtain ⟨target, place, stop, hway, hown⟩ := ih
      exact ⟨target, place, stop, .element shape before hway, hown⟩
    | oddKey kind shape before odd => exact ⟨_, _, _, .here _ _, .oddKey kind shape before odd⟩
    | unknownKey shape before isKey unknown =>
      exact ⟨_, _, _, .here _ _, .unknownKey shape before isKey unknown⟩
    | repeatedKey shape before isKey again => exact ⟨_, _, _, .here _ _, .repeatedKey shape before isKey again⟩
    | entry kind shape before isKey known new fault ih =>
      obtain ⟨target, place, stop, hway, hown⟩ := ih
      exact ⟨target, place, stop, .entry shape before isKey known new hway, hown⟩
    | bothListings shape entriesConform incomplete all =>
      exact ⟨_, _, _, .here _ _, .bothListings shape entriesConform incomplete all⟩
  · rintro ⟨target, place, stop, hway, hown⟩
    induction hway with
    | here form node => exact hown.firstViolation
    | entry shape before isKey known new rest ih =>
      exact .entry (Form.kind?_of_under known) shape before isKey known new (ih hown)
    | element shape before rest ih => exact .element shape before (ih hown)

/-- A document is refused for the first violation of the format, under its path. -/
theorem ofGraph_eq_error_iff_firstViolation {config : Config} {root : α} {fault : Fault} :
    Reader.ofGraph config graph (some root) = .error fault ↔
      ∃ cause address location, FirstViolation graph readable (.entity .dump) root cause address location ∧
        fault = .node cause (pathOf location) := by
  rw [Reader.ofGraph_eq_error_iff]
  constructor
  · rintro ⟨refusal, hrefused, rfl⟩
    rcases readDump_eq_error_iff.mp hrefused with ⟨hnone, _⟩ | ⟨node, address, hroot, hviolation⟩
    · cases hnone
    · obtain rfl := Option.some.inj hroot
      obtain ⟨_, _, hleads, _⟩ := hviolation.justifies
      exact ⟨refusal.cause, address, refusal.location, hviolation, by rw [hleads.render_eq]⟩
  · rintro ⟨cause, address, location, hviolation, rfl⟩
    obtain ⟨_, _, hleads, _⟩ := hviolation.justifies
    refine ⟨⟨cause, location⟩, ?_, by rw [hleads.render_eq]⟩
    exact readDump_eq_error_iff.mpr (Or.inr ⟨root, address, rfl, hviolation⟩)

end

/-! ## Documents that go on differently -/

/-- Two trees that are the same but for what stands behind the steps of an address, in the maps and sequences that it
goes through, and behind the place at which reading stops.  If that is a key, its value is behind it. -/
inductive SameUpTo : Stop → Address → Tree → Tree → Prop where
  | node (tree : Tree) : SameUpTo .node [] tree tree
  | key (front back back' : List (Tree × Tree)) (key child child' : Tree) :
      SameUpTo (.key front.length) [] (.map (front ++ (key, child) :: back)) (.map (front ++ (key, child') :: back'))
  | entry {stop : Stop} {address : Address} {child child' : Tree} (front back back' : List (Tree × Tree))
      (key : Tree) (rest : SameUpTo stop address child child') :
      SameUpTo stop (.entry front.length :: address) (.map (front ++ (key, child) :: back))
        (.map (front ++ (key, child') :: back'))
  | element {stop : Stop} {address : Address} {child child' : Tree} (front back back' : List Tree)
      (rest : SameUpTo stop address child child') :
      SameUpTo stop (.element front.length :: address) (.sequence (front ++ child :: back))
        (.sequence (front ++ child' :: back'))

theorem eq_map_of_shape {tree : Tree} {entries : List (Tree × Tree)} (h : tree.shape = .map entries) :
    tree = .map entries := by
  cases tree <;> simp_all [Tree.shape]

theorem eq_sequence_of_shape {tree : Tree} {items : List Tree} (h : tree.shape = .sequence items) :
    tree = .sequence items := by
  cases tree <;> simp_all [Tree.shape]

namespace SameUpTo

variable {stop : Stop} {address : Address} {tree other : Tree}

/-- Where the node as a whole is refused, it is the same node. -/
theorem eq_of_node (h : SameUpTo .node [] tree other) : other = tree := by
  cases h
  rfl

theorem of_key {front back : List (Tree × Tree)} {key child : Tree}
    (h : SameUpTo (.key front.length) [] (.map (front ++ (key, child) :: back)) other) :
    ∃ child' back', other = .map (front ++ (key, child') :: back') := by
  generalize hstop : Stop.key front.length = stop at h
  generalize htree : Node.Tree.map (front ++ (key, child) :: back) = tree at h
  cases h with
  | node tree => cases hstop
  | key front' back₁ back₂ key' child₁ child₂ =>
    obtain ⟨rfl, hback⟩ := List.append_inj (Tree.map.inj htree) (Stop.key.inj hstop)
    obtain ⟨rfl, _⟩ := Prod.mk.inj (List.cons.inj hback).1
    exact ⟨child₂, back₂, rfl⟩

theorem of_entry {front back : List (Tree × Tree)} {key child : Tree}
    (h : SameUpTo stop (.entry front.length :: address) (.map (front ++ (key, child) :: back)) other) :
    ∃ child' back', other = .map (front ++ (key, child') :: back') ∧ SameUpTo stop address child child' := by
  generalize haddress : Move.entry front.length :: address = whole at h
  generalize htree : Node.Tree.map (front ++ (key, child) :: back) = tree at h
  cases h with
  | node tree => cases haddress
  | key front' back₁ back₂ key' child₁ child₂ => cases haddress
  | entry front' back₁ back₂ key' rest =>
    obtain ⟨hmove, rfl⟩ := List.cons.inj haddress
    obtain ⟨rfl, hback⟩ := List.append_inj (Tree.map.inj htree) (Move.entry.inj hmove)
    obtain ⟨rfl, rfl⟩ := Prod.mk.inj (List.cons.inj hback).1
    exact ⟨_, back₂, rfl, rest⟩
  | element front' back₁ back₂ rest => cases htree

theorem of_element {front back : List Tree} {child : Tree}
    (h : SameUpTo stop (.element front.length :: address) (.sequence (front ++ child :: back)) other) :
    ∃ child' back', other = .sequence (front ++ child' :: back') ∧ SameUpTo stop address child child' := by
  generalize haddress : Move.element front.length :: address = whole at h
  generalize htree : Node.Tree.sequence (front ++ child :: back) = tree at h
  cases h with
  | node tree => cases haddress
  | key front' back₁ back₂ key' child₁ child₂ => cases haddress
  | entry front' back₁ back₂ key' rest => cases htree
  | element front' back₁ back₂ rest =>
    obtain ⟨hmove, rfl⟩ := List.cons.inj haddress
    obtain ⟨rfl, hback⟩ := List.append_inj (Tree.sequence.inj htree) (Move.element.inj hmove)
    obtain ⟨rfl, _⟩ := List.cons.inj hback
    exact ⟨_, back₂, rfl, rest⟩

end SameUpTo

section

variable {limit : Option Nat} {form target : Form} {tree other place : Tree} {stop : Stop}

/-- A way that is clear in one tree is clear in each tree that is the same up to its end. -/
theorem ClearWay.transfer {address : Address} {location : List Step}
    (h : ClearWay Tree.shape limit form tree address location target place) (hsame : SameUpTo stop address tree other) :
    ∃ place', ClearWay Tree.shape limit form other address location target place' ∧ SameUpTo stop [] place place' := by
  induction h generalizing other with
  | here form node => exact ⟨other, .here form other, hsame⟩
  | entry shape before isKey known new rest ih =>
    rw [eq_map_of_shape shape] at hsame
    obtain ⟨child', back', rfl, hchild⟩ := hsame.of_entry
    obtain ⟨place', hway, hplace⟩ := ih hchild
    exact ⟨place', .entry rfl before isKey known new hway, hplace⟩
  | element shape before rest ih =>
    rw [eq_sequence_of_shape shape] at hsame
    obtain ⟨child', back', rfl, hchild⟩ := hsame.of_element
    obtain ⟨place', hway, hplace⟩ := ih hchild
    exact ⟨place', .element rfl before hway, hplace⟩

/-- What is wrong with a node itself does not lie behind the place at which its reading stops. -/
theorem OwnFault.transfer {cause : Cause} (h : OwnFault Tree.shape limit form tree cause stop)
    (hsame : SameUpTo stop [] tree other) : OwnFault Tree.shape limit form other cause stop := by
  cases h with
  | shape asked kind =>
    rw [hsame.eq_of_node]
    exact .shape asked kind
  | scalar shape misreads =>
    rw [hsame.eq_of_node]
    exact .scalar shape misreads
  | oddKey kind shape before odd =>
    rw [eq_map_of_shape shape] at hsame
    obtain ⟨child', back', rfl⟩ := hsame.of_key
    exact .oddKey kind rfl before odd
  | unknownKey shape before isKey unknown =>
    rw [eq_map_of_shape shape] at hsame
    obtain ⟨child', back', rfl⟩ := hsame.of_key
    exact .unknownKey rfl before isKey unknown
  | repeatedKey shape before isKey again =>
    rw [eq_map_of_shape shape] at hsame
    obtain ⟨child', back', rfl⟩ := hsame.of_key
    exact .repeatedKey rfl before isKey again
  | bothListings shape entriesConform incomplete all =>
    rw [hsame.eq_of_node]
    exact .bothListings shape entriesConform incomplete all

end

/-! ## Refusals -/

/-- A document that is refused has a place to which the way is clear and at which something is wrong, and every document
that is the same up to there is refused in the same words.  A document is taken as the tree that it unfolds to on the
levels that are read; one that shares no nodes is that tree. -/
theorem fault_of_sameUpTo {α : Type} {config : Config} {graph : Graph α} {root : α} {tree : Tree} {fault : Fault}
    (htree : Alike graph Tree.shape 11 root tree) (h : Reader.ofGraph config graph (some root) = .error fault) :
    ∃ address location form place cause stop, fault = .node cause (pathOf location) ∧
      ClearWay Tree.shape readable (.entity .dump) tree address location form place ∧
      OwnFault Tree.shape readable form place cause stop ∧
      ∀ {β : Type} (graph' : Graph β) (root' : β) (other : Tree), Alike graph' Tree.shape 11 root' other →
        SameUpTo stop address tree other →
          ∀ config', Reader.ofGraph config' graph' (some root') = .error fault := by
  rw [ofGraph_congr config htree] at h
  obtain ⟨cause, address, location, hviolation, rfl⟩ := ofGraph_eq_error_iff_firstViolation.mp h
  obtain ⟨form, place, stop, hway, hown⟩ := firstViolation_iff_clearWay.mp hviolation
  refine ⟨address, location, form, place, cause, stop, rfl, hway, hown, ?_⟩
  intro β graph' root' other hother hsame config'
  obtain ⟨place', hway', hplace⟩ := hway.transfer hsame
  have hviolation' := firstViolation_iff_clearWay.mpr ⟨form, place', stop, hway', hown.transfer hplace⟩
  rw [ofGraph_congr config' hother]
  exact ofGraph_eq_error_iff_firstViolation.mpr ⟨cause, address, location, hviolation', rfl⟩

/-- A device whose second queue has a key that is not in its table, with other things behind it that are not in order
either. -/
def driftedQueue : Tree :=
  .map [
    (.scalar "settings", .map [(.scalar "trace", .scalar "on")]),
    (.scalar "Device", .map [
      (.scalar "Queues", .sequence [
        .map [(.scalar "index", .scalar "0")],
        .map [
          (.scalar "index", .scalar "1"), (.scalar "priority", .scalar "high"), (.sequence [], .scalar "odd")],
        .scalar "none"]),
      (.scalar "vendorID", .scalar "unknown")]),
    (.scalar "settings", .scalar "none")]

/-- The refusal of the key, with the documents that share it. -/
theorem fault_of_sameUpTo_driftedQueue :
    Reader.ofGraph {} Tree.shape (some driftedQueue)
        = .error (.node (.unknownKey .queue "priority") "Device[0].Queues[1]") ∧
      ∃ address location form place cause stop,
        Fault.node (.unknownKey .queue "priority") "Device[0].Queues[1]" = .node cause (pathOf location) ∧
          ClearWay Tree.shape readable (.entity .dump) driftedQueue address location form place ∧
          OwnFault Tree.shape readable form place cause stop ∧
          ∀ other, SameUpTo stop address driftedQueue other →
            Reader.ofGraph {} Tree.shape (some other)
              = .error (.node (.unknownKey .queue "priority") "Device[0].Queues[1]") := by
  have hread : Reader.ofGraph {} Tree.shape (some driftedQueue)
      = .error (.node (.unknownKey .queue "priority") "Device[0].Queues[1]") := by
    decide +kernel
  refine ⟨hread, ?_⟩
  obtain ⟨address, location, form, place, cause, stop, hfault, hway, hown, hothers⟩ :=
    fault_of_sameUpTo (alike_self 11 driftedQueue) hread
  refine ⟨address, location, form, place, cause, stop, hfault, hway, hown, ?_⟩
  intro other hsame
  exact hothers Tree.shape other other (alike_self 11 other) hsame {}

end Postmortem
