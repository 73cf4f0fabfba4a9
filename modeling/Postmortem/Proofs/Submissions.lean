import Mathlib.Data.List.Nodup
import Postmortem.Proofs.Pairs
import Postmortem.Proofs.Positions
import Postmortem.Proofs.RepeatedKeys
import Postmortem.Proofs.Unread
set_option autoImplicit false

/-!
# Submissions: the walk through a dump and its document

The walk through the submissions of a dump meets the names of command buffers that the document has under its submit
informations, each once and in the order of the document, with everything that the name belongs to; and nothing else.
This takes a document that gives no key twice except for devices, since of a key that is given twice one value is
dropped.  The main statement is `submitted_agrees`.
-/

namespace Postmortem

open Postmortem.Node Postmortem.Progress

/-! ## Nodes with their places -/

/-- A node below another one, with the way to it and the steps under which it is known there. -/
structure Placed (α : Type) where
  node : α
  address : Address
  location : List Step

section

variable {α : Type}

/-- A node below a placed one, seen from where that one is seen from. -/
def Placed.under (outer inner : Placed α) : Placed α :=
  ⟨inner.node, outer.address ++ inner.address, outer.location ++ inner.location⟩

/-- The nodes below some placed ones, seen from where those are seen from. -/
def descend (outer : List (Placed α)) (inner : α → List (Placed α)) : List (Placed α) :=
  outer.flatMap fun p => (inner p.node).map p.under

/-- Places come in the order of the document. -/
def Placed.Before (p q : Placed α) : Prop := p.address.Before q.address

theorem mem_descend_iff {outer : List (Placed α)} {inner : α → List (Placed α)} {p : Placed α} :
    p ∈ descend outer inner ↔ ∃ q ∈ outer, ∃ own ∈ inner q.node, p = q.under own := by
  simp only [descend, List.mem_flatMap, List.mem_map, eq_comm]

theorem Address.Before.behind_append {a b : Address} (h : a.Before b) (front : Address) :
    (front ++ a).Before (front ++ b) := by
  induction front with
  | nil => exact h
  | cons move front ih => exact ih.behind move

/-- Ways of one length part before their ends. -/
theorem Address.Before.append_of_length {a b : Address} (h : a.Before b) (hlength : a.length = b.length)
    (x y : Address) : (a ++ x).Before (b ++ y) := by
  induction h with
  | nil => cases hlength
  | cons _ ih => exact (ih (Nat.succ.inj hlength)).behind _
  | rel hlt => exact Address.before_of_number hlt _ _

/-- What is below places in order, is in order. -/
theorem pairwise_descend (length : Nat) {outer : List (Placed α)} {inner : α → List (Placed α)}
    (hlength : ∀ p ∈ outer, p.address.length = length) (houter : outer.Pairwise Placed.Before)
    (hinner : ∀ node, (inner node).Pairwise Placed.Before) : (descend outer inner).Pairwise Placed.Before := by
  rw [descend, List.pairwise_flatMap]
  constructor
  · intro p _
    rw [List.pairwise_map]
    exact (hinner p.node).imp fun h => h.behind_append p.address
  · refine houter.imp_of_mem ?_
    intro p q hp hq hbefore own hown own' hown'
    obtain ⟨_, _, rfl⟩ := List.mem_map.mp hown
    obtain ⟨_, _, rfl⟩ := List.mem_map.mp hown'
    exact hbefore.append_of_length ((hlength p hp).trans (hlength q hq).symm) _ _

variable (graph : Graph α)

/-! ## Under a key -/

/-- What the entries under a key give, in order; `parts` tells it from the entries before and the value. -/
def partsUnder (key : String) (parts : List (α × α) → α → List (Placed α)) (node : α) : List (Placed α) :=
  (withFronts [] (pairsOf graph node)).flatMap fun part =>
    if keyOf graph part.2.1 = some key then
      (parts part.1 part.2.2).map (Placed.under ⟨part.2.2, [.entry part.1.length], []⟩)
    else []

/-- The elements of the sequences under a key. -/
def elementsUnder (key : String) : α → List (Placed α) :=
  partsUnder graph key fun _ value => (withFronts [] (itemsOf graph value)).map fun item =>
    ⟨item.2, [.element item.1.length], [.key key, .index item.1.length]⟩

/-- The devices of a dump. -/
def devicesUnder : α → List (Placed α) :=
  partsUnder graph "Device" fun front value =>
    [⟨value, [], [.key "Device", .index (valuesUnder graph "Device" front).length]⟩]

/-- The elements that are reached through the sequences under some keys, one key after the other. -/
def elementsBelow : List String → α → List (Placed α)
  | [], node => [⟨node, [], []⟩]
  | key :: keys, node => descend (elementsUnder graph key node) (elementsBelow keys)

/-- The keys on the way from a device to the names under its submit informations. -/
def submissionKeys : List String := ["Queues", "IncompleteSubmits", "SubmitInfos", "CommandBuffers"]

/-- The names under the submit informations of a document. -/
def submittedNames (root : α) : List (Placed α) :=
  descend (devicesUnder graph root) (elementsBelow graph submissionKeys)

variable {graph}

section

variable {key : String} {parts : List (α × α) → α → List (Placed α)} {node : α} {p : Placed α}

theorem mem_partsUnder_iff :
    p ∈ partsUnder graph key parts node ↔
      ∃ front name child back, graph node = .map (front ++ (name, child) :: back) ∧ graph name = .scalar key ∧
        ∃ own ∈ parts front child, p = ⟨own.node, .entry front.length :: own.address, own.location⟩ := by
  rw [partsUnder, List.mem_flatMap]
  constructor
  · rintro ⟨⟨front, name, child⟩, hsplit, hp⟩
    obtain ⟨back, hshape⟩ := mem_withFronts_pairsOf.mp hsplit
    split_ifs at hp with hkey
    · obtain ⟨own, hown, rfl⟩ := List.mem_map.mp hp
      exact ⟨front, name, child, back, hshape, keyOf_eq_some_iff.mp hkey, own, hown, rfl⟩
    · cases hp
  · rintro ⟨front, name, child, back, hshape, hkey, own, hown, rfl⟩
    refine ⟨(front, (name, child)), mem_withFronts_pairsOf.mpr ⟨back, hshape⟩, ?_⟩
    rw [if_pos (keyOf_eq_some_iff.mpr hkey)]
    exact List.mem_map.mpr ⟨own, hown, rfl⟩

theorem pairwise_partsUnder (h : ∀ front value, (parts front value).Pairwise Placed.Before) :
    (partsUnder graph key parts node).Pairwise Placed.Before := by
  rw [partsUnder, List.pairwise_flatMap]
  constructor
  · intro part _
    split_ifs
    · rw [List.pairwise_map]
      exact (h _ _).imp fun hbefore => hbefore.behind _
    · exact .nil
  · refine (pairwise_withFronts [] _).imp ?_
    intro part part' hlt p hp q hq
    split_ifs at hp hq
    · obtain ⟨_, _, rfl⟩ := List.mem_map.mp hp
      obtain ⟨_, _, rfl⟩ := List.mem_map.mp hq
      apply Address.before_of_number
      exact hlt
    all_goals simp at hp hq

theorem mem_elementsUnder_iff :
    p ∈ elementsUnder graph key node ↔
      ∃ front name list back before after, graph node = .map (front ++ (name, list) :: back) ∧
        graph name = .scalar key ∧ graph list = .sequence (before ++ p.node :: after) ∧
        p.address = [.entry front.length, .element before.length] ∧ p.location = [.key key, .index before.length] := by
  rw [elementsUnder, mem_partsUnder_iff]
  constructor
  · rintro ⟨front, name, list, back, hshape, hkey, own, hown, rfl⟩
    obtain ⟨⟨before, child⟩, hsplit, rfl⟩ := List.mem_map.mp hown
    obtain ⟨after, hlist⟩ := mem_withFronts_itemsOf.mp hsplit
    exact ⟨front, name, list, back, before, after, hshape, hkey, hlist, rfl, rfl⟩
  · obtain ⟨child, address, location⟩ := p
    rintro ⟨front, name, list, back, before, after, hshape, hkey, hlist, rfl, rfl⟩
    refine ⟨front, name, list, back, hshape, hkey, ⟨child, [.element before.length], _⟩, ?_, rfl⟩
    exact List.mem_map.mpr ⟨(before, child), mem_withFronts_itemsOf.mpr ⟨after, hlist⟩, rfl⟩

theorem mem_devicesUnder_iff :
    p ∈ devicesUnder graph node ↔
      ∃ front name back, graph node = .map (front ++ (name, p.node) :: back) ∧ graph name = .scalar "Device" ∧
        p.address = [.entry front.length] ∧
        p.location = [.key "Device", .index (valuesUnder graph "Device" front).length] := by
  rw [devicesUnder, mem_partsUnder_iff]
  constructor
  · rintro ⟨front, name, child, back, hshape, hkey, own, hown, rfl⟩
    obtain rfl := List.mem_singleton.mp hown
    exact ⟨front, name, back, hshape, hkey, rfl, rfl⟩
  · obtain ⟨child, address, location⟩ := p
    rintro ⟨front, name, back, hshape, hkey, rfl, rfl⟩
    exact ⟨front, name, child, back, hshape, hkey, _, List.mem_singleton.mpr rfl, rfl⟩

theorem pairwise_elementsUnder (key : String) (node : α) :
    (elementsUnder graph key node).Pairwise Placed.Before := by
  refine pairwise_partsUnder fun _ value => ?_
  rw [List.pairwise_map]
  exact (pairwise_withFronts [] _).imp fun hlt => Address.before_of_number hlt _ _

theorem pairwise_elementsBelow (keys : List String) (node : α) :
    (elementsBelow graph keys node).Pairwise Placed.Before := by
  induction keys generalizing node with
  | nil => exact List.pairwise_singleton _ _
  | cons key keys ih =>
    refine pairwise_descend 2 (fun p hp => ?_) (pairwise_elementsUnder key node) ih
    obtain ⟨_, _, _, _, _, _, _, _, _, haddress, _⟩ := mem_elementsUnder_iff.mp hp
    rw [haddress]
    rfl

theorem pairwise_submittedNames (root : α) : (submittedNames graph root).Pairwise Placed.Before := by
  refine pairwise_descend 1 (fun p hp => ?_) (pairwise_partsUnder fun _ _ => List.pairwise_singleton _ _)
    (pairwise_elementsBelow _)
  obtain ⟨_, _, _, _, _, haddress, _⟩ := mem_devicesUnder_iff.mp hp
  rw [haddress]
  rfl

end

/-! ## Which names are met -/

/-- Whether submit informations stand below a form. -/
def Form.hasSubmits : Form → Bool
  | .sequence item => item.hasSubmits
  | .entity e => e ∈ [Entity.submitInfo, .submit, .queue, .device, .dump]
  | _ => false

/-- The rows of an entity that lead to submit informations. -/
def Entity.submitRows (e : Entity) : List (String × Form) := e.format.filter fun row => row.2.hasSubmits

theorem Entity.hasSubmits_of_row (e : Entity) :
    ∀ row ∈ e.format, row.2.hasSubmits = true → (Form.entity e).hasSubmits = true := by
  cases e <;> decide

theorem Leads.hasSubmits {form : Form} {node place : α} {address : Address} {location : List Step}
    (h : Leads graph form node address location (.entity .submitInfo) place) : form.hasSubmits = true :=
  h.upward (p := fun form => form.hasSubmits = true) (by decide) (fun _ hitem => hitem)
    (fun e => e.hasSubmits_of_row) (by decide)

variable (graph)

/-- A name under a submit information that the format leads to from the map of an entity. -/
inductive IsSubmittedName (e : Entity) (node : α) : Placed α → Prop
  | name {info key list name : α} {front back : List (α × α)} {before after : List α} {address : Address}
      {location : List Step} (leads : Leads graph (.entity e) node address location (.entity .submitInfo) info)
      (shape : graph info = .map (front ++ (key, list) :: back)) (isKey : graph key = .scalar "CommandBuffers")
      (names : graph list = .sequence (before ++ name :: after)) :
      IsSubmittedName e node ⟨name, address ++ [.entry front.length, .element before.length],
        location ++ [.key "CommandBuffers", .index before.length]⟩

variable {graph}

theorem isSubmittedName_iff {e : Entity} {node : α} {p : Placed α} :
    IsSubmittedName graph e node p ↔
      ∃ info : Placed α, Leads graph (.entity e) node info.address info.location (.entity .submitInfo) info.node ∧
        ∃ own ∈ elementsUnder graph "CommandBuffers" info.node, p = info.under own := by
  constructor
  · rintro ⟨leads, shape, isKey, names⟩
    refine ⟨⟨_, _, _⟩, leads, ⟨_, _, _⟩, mem_elementsUnder_iff.mpr ⟨_, _, _, _, _, _, shape, isKey, names, rfl, rfl⟩, rfl⟩
  · rintro ⟨⟨info, address, location⟩, leads, ⟨name, way, steps⟩, hown, rfl⟩
    obtain ⟨front, key, list, back, before, after, shape, isKey, names, rfl, rfl⟩ := mem_elementsUnder_iff.mp hown
    exact .name leads shape isKey names

/-- A name below a placed map of an entity is one below the map from which that is seen. -/
theorem IsSubmittedName.under {e item : Entity} {node : α} {p own : Placed α}
    (hp : Leads graph (.entity e) node p.address p.location (.entity item) p.node)
    (h : IsSubmittedName graph item p.node own) : IsSubmittedName graph e node (p.under own) := by
  obtain ⟨info, leads, name, hname, rfl⟩ := isSubmittedName_iff.mp h
  refine isSubmittedName_iff.mpr ⟨p.under info, hp.trans leads, name, hname, ?_⟩
  simp [Placed.under]

/-- A way from a map of an entity to a submit information goes through one of the rows that lead there. -/
theorem Leads.submitRow {e : Entity} {node place : α} {address : Address} {location : List Step}
    (h : Leads graph (.entity e) node address location (.entity .submitInfo) place) (he : e ≠ .submitInfo) :
    ∃ front key child back name inner rest further, graph node = .map (front ++ (key, child) :: back) ∧
      graph key = .scalar name ∧ (name, inner) ∈ e.submitRows ∧
      Leads graph inner child rest further (.entity .submitInfo) place ∧ address = .entry front.length :: rest ∧
      location = (Form.entity e).stepsTo name (valuesUnder graph name front).length ++ further := by
  cases h with
  | here => exact absurd rfl he
  | entry shape isKey known rest =>
    exact ⟨_, _, _, _, _, _, _, _, shape, isKey, List.mem_filter.mpr ⟨Entity.mem_format known, rest.hasSubmits⟩, rest,
      rfl, rfl⟩

theorem stepsTo_of_ne_dump {e : Entity} (he : e ≠ .dump) (key : String) (earlier : Nat) :
    (Form.entity e).stepsTo key earlier = [.key key] := by
  simp [Form.stepsTo, he]

/-- The format leads to the elements of a sequence that it asks for. -/
theorem leads_of_mem_elementsUnder {e : Entity} {item : Form} {key : String} {node : α} {p : Placed α}
    (he : e ≠ .dump) (hlookup : e.format.lookup key = some (.sequence item))
    (hp : p ∈ elementsUnder graph key node) : Leads graph (.entity e) node p.address p.location item p.node := by
  obtain ⟨front, name, list, back, before, after, hshape, hkey, hlist, haddress, hlocation⟩ :=
    mem_elementsUnder_iff.mp hp
  have hknown : (Form.entity e).under key = some (.sequence item) := hlookup
  have hleads := Leads.entry hshape hkey hknown (.element hlist (.here item p.node))
  rw [stepsTo_of_ne_dump he] at hleads
  rw [haddress, hlocation]
  exact hleads

/-- The format leads to the devices of a dump. -/
theorem leads_of_mem_devicesUnder {root : α} {p : Placed α} (hp : p ∈ devicesUnder graph root) :
    Leads graph (.entity .dump) root p.address p.location (.entity .device) p.node := by
  obtain ⟨front, name, back, hshape, hkey, haddress, hlocation⟩ := mem_devicesUnder_iff.mp hp
  have hknown : (Form.entity .dump).under "Device" = some (.entity .device) := by decide
  have hleads := Leads.entry hshape hkey hknown (.here _ p.node)
  rw [haddress, hlocation]
  simpa [Form.stepsTo] using hleads

theorem mem_elementsBelow_submitInfo_iff {node : α} {p : Placed α} :
    p ∈ elementsBelow graph ["CommandBuffers"] node ↔ IsSubmittedName graph .submitInfo node p := by
  have hrows : ∀ row ∈ Entity.submitInfo.format, row.2.hasSubmits = false := by decide
  rw [elementsBelow, mem_descend_iff, isSubmittedName_iff]
  constructor
  · rintro ⟨p, hp, own, hown, rfl⟩
    obtain rfl := List.mem_singleton.mp hown
    exact ⟨⟨node, [], []⟩, .here _ _, p, hp, by simp [Placed.under]⟩
  · rintro ⟨⟨info, address, location⟩, hleads, p, hp, rfl⟩
    cases hleads with
    | here => exact ⟨p, hp, _, List.mem_singleton.mpr rfl, by simp [Placed.under]⟩
    | entry shape isKey known rest => exact absurd rest.hasSubmits (by simp [hrows _ (Entity.mem_format known)])

variable (graph)

/-- All ways from the map of an entity to a submit information go through one of some places, where maps of another
entity stand. -/
structure Passes (e item : Entity) (node : α) (places : List (Placed α)) : Prop where
  leads : ∀ p ∈ places, Leads graph (.entity e) node p.address p.location (.entity item) p.node
  split : ∀ address location info, Leads graph (.entity e) node address location (.entity .submitInfo) info →
    ∃ p ∈ places, ∃ more further, Leads graph (.entity item) p.node more further (.entity .submitInfo) info ∧
      address = p.address ++ more ∧ location = p.location ++ further

variable {graph}

/-- Below places through which all ways go, the names are those below the map itself. -/
theorem Passes.mem_descend_iff {e item : Entity} {node : α} {places : List (Placed α)} {inner : α → List (Placed α)}
    (h : Passes graph e item node places)
    (hinner : ∀ place p, p ∈ inner place ↔ IsSubmittedName graph item place p) {p : Placed α} :
    p ∈ descend places inner ↔ IsSubmittedName graph e node p := by
  rw [Postmortem.mem_descend_iff]
  constructor
  · rintro ⟨outer, houter, own, hown, rfl⟩
    exact ((hinner _ own).mp hown).under (h.leads outer houter)
  · intro hp
    obtain ⟨⟨info, address, location⟩, hleads, name, hname, rfl⟩ := isSubmittedName_iff.mp hp
    obtain ⟨outer, houter, more, further, hmore, rfl, rfl⟩ := h.split _ _ _ hleads
    have hown : IsSubmittedName graph item outer.node ((⟨info, more, further⟩ : Placed α).under name) :=
      isSubmittedName_iff.mpr ⟨⟨info, more, further⟩, hmore, name, hname, rfl⟩
    exact ⟨outer, houter, _, (hinner _ _).mpr hown, by simp [Placed.under]⟩

/-- All ways go through the elements under a key if that is the only one that leads to submit informations. -/
theorem passes_elementsUnder {e item : Entity} {key : String} (hinfo : e ≠ .submitInfo) (hdump : e ≠ .dump)
    (hlookup : e.format.lookup key = some (.sequence (.entity item)))
    (hrows : e.submitRows = [(key, .sequence (.entity item))]) (node : α) :
    Passes graph e item node (elementsUnder graph key node) where
  leads := fun _ => leads_of_mem_elementsUnder hdump hlookup
  split := by
    intro address location info hleads
    obtain ⟨front, name, list, back, held, _, rest, further, hshape, hkey, hrow, hrest, rfl, rfl⟩ :=
      hleads.submitRow hinfo
    rw [hrows, List.mem_singleton] at hrow
    obtain ⟨rfl, rfl⟩ := Prod.mk.inj hrow
    cases hrest with
    | entry shape isKey known rest => exact absurd known (by simp [Form.under])
    | @element _ _ _ child _ before after more further shape rest =>
      refine ⟨⟨child, [.entry front.length, .element before.length], [.key held, .index before.length]⟩, ?_, more,
        further, rest, rfl, by simp [stepsTo_of_ne_dump hdump]⟩
      exact mem_elementsUnder_iff.mpr ⟨front, name, list, back, before, after, hshape, hkey, shape, rfl, rfl⟩

/-- All ways from the root of a dump go through its devices. -/
theorem passes_devicesUnder (root : α) : Passes graph .dump .device root (devicesUnder graph root) where
  leads := fun _ => leads_of_mem_devicesUnder
  split := by
    have hrows : Entity.dump.submitRows = [("Device", .entity .device)] := by decide
    intro address location info hleads
    obtain ⟨front, name, child, back, _, _, rest, further, hshape, hkey, hrow, hrest, rfl, rfl⟩ :=
      hleads.submitRow (by decide)
    rw [hrows, List.mem_singleton] at hrow
    obtain ⟨rfl, rfl⟩ := Prod.mk.inj hrow
    refine ⟨⟨child, [.entry front.length], _⟩, ?_, rest, further, hrest, rfl, rfl⟩
    exact mem_devicesUnder_iff.mpr ⟨front, name, back, hshape, hkey, rfl, rfl⟩

/-- The names that are listed are those below the root of a dump. -/
theorem mem_submittedNames_iff {root : α} {p : Placed α} :
    p ∈ submittedNames graph root ↔ IsSubmittedName graph .dump root p := by
  have hsubmit : ∀ node, Passes graph .submit .submitInfo node (elementsUnder graph "SubmitInfos" node) :=
    passes_elementsUnder (by decide) (by decide) (by decide) (by decide)
  have hqueue : ∀ node, Passes graph .queue .submit node (elementsUnder graph "IncompleteSubmits" node) :=
    passes_elementsUnder (by decide) (by decide) (by decide) (by decide)
  have hdevice : ∀ node, Passes graph .device .queue node (elementsUnder graph "Queues" node) :=
    passes_elementsUnder (by decide) (by decide) (by decide) (by decide)
  refine (passes_devicesUnder root).mem_descend_iff fun _ _ => (hdevice _).mem_descend_iff fun _ _ =>
    (hqueue _).mem_descend_iff fun _ _ => (hsubmit _).mem_descend_iff fun _ _ => mem_elementsBelow_submitInfo_iff

/-! ## What they are read to -/

variable (graph)

/-- No map that the format leads to gives a key twice, except the devices of a dump. -/
def GivesOnce (form : Form) (node : α) : Prop :=
  ∀ address location e place entries key, Leads graph form node address location (.entity e) place →
    graph place = .map entries → ¬(e = .dump ∧ key = "Device") → (keysOf graph entries).count key ≤ 1

/-- The steps to a position through the sequences under some keys. -/
def stepsUnder : List String → Position → List Step
  | key :: keys, number :: position => .key key :: .index number :: stepsUnder keys position
  | _, _ => []

/-- A placed node has the text of a name and is known by its position. -/
def Tells (keys : List String) (p : Placed α) (part : Position × String) : Prop :=
  p.location = stepsUnder keys part.1 ∧ graph p.node = .scalar part.2

/-- What is reached through some keys below the map of an entity is what the entity holds that the map is read to. -/
def ReadsTo (e : Entity) (keys : List String) (held : e.Value → List (Position × String)) : Prop :=
  ∀ node value remarks, readEntity graph e e.initial node = .ok (value, remarks) → GivesOnce graph (.entity e) node →
    List.Forall₂ (Tells graph keys) (elementsBelow graph keys node) (held value)

variable {graph}

/-- An entity has at most one value for a key in its map. -/
theorem GivesOnce.length_valuesUnder_le {e : Entity} {node : α} {entries : List (α × α)}
    (h : GivesOnce graph (.entity e) node) (hnode : graph node = .map entries) (he : e ≠ .dump) (key : String) :
    (valuesUnder graph key (pairsOf graph node)).length ≤ 1 := by
  have hpairs : pairsOf graph node = entries := by rw [pairsOf, hnode]
  rw [hpairs, length_valuesUnder]
  exact h _ _ e node entries key (.here _ _) hnode fun hdevice => he hdevice.1

theorem GivesOnce.of_leads {form target : Form} {node place : α} {address : Address} {location : List Step}
    (h : GivesOnce graph form node) (hleads : Leads graph form node address location target place) :
    GivesOnce graph target place :=
  fun _ _ e other entries key hmore => h _ _ e other entries key (hleads.trans hmore)

/-- A placed node without the way to it. -/
def Placed.seen (p : Placed α) : α × List Step := (p.node, p.location)

theorem map_seen_partsUnder (seen : Nat → α → List (α × List Step)) {key : String}
    {parts : List (α × α) → α → List (Placed α)} {node : α}
    (h : ∀ front value, (parts front value).map Placed.seen = seen (valuesUnder graph key front).length value) :
    (partsUnder graph key parts node).map Placed.seen =
      (valuesUnder graph key (pairsOf graph node)).zipIdx.flatMap fun value => seen value.2 value.1 := by
  have hunder : ∀ (value : α) (number : Nat),
      Placed.seen ∘ Placed.under ⟨value, [.entry number], []⟩ = Placed.seen := fun _ _ => rfl
  suffices hall : ∀ entries front : List (α × α),
      ((withFronts front entries).flatMap fun part =>
        if keyOf graph part.2.1 = some key then
          (parts part.1 part.2.2).map (Placed.under ⟨part.2.2, [.entry part.1.length], []⟩)
        else []).map Placed.seen =
      ((valuesUnder graph key entries).zipIdx (valuesUnder graph key front).length).flatMap
        fun value => seen value.2 value.1 by
    exact hall (pairsOf graph node) []
  intro entries
  induction entries with
  | nil => exact fun _ => rfl
  | cons entry rest ih =>
    intro front
    obtain ⟨name, child⟩ := entry
    rw [withFronts, List.flatMap_cons, List.map_append, ih]
    by_cases hkey : keyOf graph name = some key
    · have hname := keyOf_eq_some_iff.mp hkey
      rw [if_pos hkey, List.map_map, hunder, h, valuesUnder_append, valuesUnder_cons_self hname,
        valuesUnder_cons_self hname, List.zipIdx_cons, List.flatMap_cons]
      simp
    · have hother : ∀ more, valuesUnder graph key ((name, child) :: more) = valuesUnder graph key more :=
        fun more => by simp [valuesUnder, hkey]
      rw [if_neg hkey, valuesUnder_append, hother, hother]
      simp

/-- A slot for the value under a key that is not repeated holds what its only value is read to, if there is one. -/
theorem Takes.of_once {e : Entity} {content : Content e} {first x : content.Value} {values : List α}
    (h : Takes graph content first values.getLast? x) (honce : values.length ≤ 1) :
    values = [] ∧ x = first ∨ ∃ value remarks, values = [value] ∧ readValue graph content value = .ok (x, remarks) := by
  match values with
  | [] => exact .inl ⟨rfl, h⟩
  | [value] =>
    obtain ⟨remarks, hread⟩ := h
    exact .inr ⟨value, remarks, rfl, hread⟩
  | _ :: _ :: _ => simp at honce

/-- The elements under a key that is not repeated are what the value of the key is read to, number by number. -/
theorem forall₂_elementsUnder {τ : Type} {read : α → Outcome τ} {key : String} {node : α} {list : List τ}
    (h : valuesUnder graph key (pairsOf graph node) = [] ∧ list = [] ∨ ∃ value remarks,
      valuesUnder graph key (pairsOf graph node) = [value] ∧ readSequence graph read value = .ok (list, remarks)) :
    List.Forall₂ (fun p part => p.location = [.key key, .index part.2] ∧ ∃ own, read p.node = .ok (part.1, own))
      (elementsUnder graph key node) list.zipIdx := by
  have hseen : (elementsUnder graph key node).map Placed.seen =
      (valuesUnder graph key (pairsOf graph node)).zipIdx.flatMap fun value =>
        (itemsOf graph value.1).zipIdx.map fun item => (item.1, [.key key, .index item.2]) := by
    refine map_seen_partsUnder
      (fun _ value => (itemsOf graph value).zipIdx.map fun item => (item.1, [.key key, .index item.2])) ?_
    intro _ value
    rw [← List.length_nil, ← map_withFronts_eq_zipIdx, List.map_map, List.map_map]
    rfl
  have hparts : List.Forall₂
      (fun (seen : α × List Step) part => seen.2 = [.key key, .index part.2] ∧ ∃ own, read seen.1 = .ok (part.1, own))
      ((elementsUnder graph key node).map Placed.seen) list.zipIdx := by
    rw [hseen]
    rcases h with ⟨hvalues, rfl⟩ | ⟨value, remarks, hvalues, hread⟩
    · rw [hvalues]
      exact .nil
    · simp only [hvalues, List.zipIdx_singleton, List.flatMap_singleton, List.forall₂_map_left_iff]
      exact (forall₂_zipIdx (forall₂_of_readSequence hread) 0).imp fun _ _ h => ⟨by rw [h.2], h.1⟩
  exact List.forall₂_map_left_iff.mp hparts

/-- What is below some places tells what is held by the parts that these are read to. -/
theorem forall₂_descend {τ : Type} {key : String} {keys : List String} {outer : List (Placed α)}
    {inner : α → List (Placed α)} {list : List τ} {held : τ → List (Position × String)}
    (h : List.Forall₂ (fun p part => p.location = [.key key, .index part.2] ∧
      List.Forall₂ (Tells graph keys) (inner p.node) (held part.1)) outer list.zipIdx) :
    List.Forall₂ (Tells graph (key :: keys)) (descend outer inner) (numbered held list) := by
  refine List.rel_flatMap h ?_
  rintro p ⟨x, number⟩ ⟨hlocation, hinner⟩
  rw [List.forall₂_map_left_iff, List.forall₂_map_right_iff]
  refine hinner.imp ?_
  rintro own part ⟨hsteps, htext⟩
  exact ⟨by simp [Placed.under, hlocation, hsteps, stepsUnder], htext⟩

/-- A key for a list of entities goes on with what its entities hold. -/
theorem ReadsTo.many {e item : Entity} {key : String} {keys : List String} {hrank : item.rank < e.rank}
    {slot : Slot e.Value (List item.Value)} {held : item.Value → List (Position × String)}
    (h : ReadsTo graph item keys held) (hdump : e ≠ .dump)
    (hlookup : e.format.lookup key = some (.sequence (.entity item)))
    (hrule : e.rule? key = some (.store (.many item hrank) slot)) :
    ReadsTo graph e (key :: keys) fun value => numbered held (slot.get value) := by
  intro node value remarks hread honce
  obtain ⟨entries, hnode, hlaws⟩ := followsLaws_of_readEntity hread
  have hlaw : Takes graph (.many item hrank) (slot.get e.initial) (valuesUnder graph key entries).getLast?
      (slot.get value) := hlaws key _ hrule
  have hempty : slot.get e.initial = [] := Entity.startsEmpty_of_rule? hrule
  have hpairs : pairsOf graph node = entries := by rw [pairsOf, hnode]
  rw [hempty, ← hpairs] at hlaw
  have hparts := forall₂_elementsUnder (hlaw.of_once (honce.length_valuesUnder_le hnode hdump key))
  refine forall₂_descend ((List.forall₂_and_left _ _).mpr ⟨fun _ hmem => hmem, hparts⟩ |>.imp ?_)
  rintro p ⟨x, number⟩ ⟨hp, hlocation, own, hown⟩
  exact ⟨hlocation, h p.node x own hown (honce.of_leads (leads_of_mem_elementsUnder hdump hlookup hp))⟩

/-- A text that is read is that of a scalar. -/
theorem scalar_of_readText {node : α} {text : String} {remarks : List Remark}
    (h : readText graph node = .ok (text, remarks)) : graph node = .scalar text := by
  unfold readText at h
  cases hnode : graph node <;> simp_all [Shape.text, Outcome.ofExcept, Outcome.refuse]

theorem readsTo_info : ReadsTo graph .submitInfo ["CommandBuffers"] namesOfInfo := by
  intro node info remarks hread honce
  obtain ⟨entries, hnode, hlaws⟩ := followsLaws_of_readEntity hread
  have hrule : Entity.submitInfo.rule? "CommandBuffers" = some (.store .texts
      ⟨SubmitInfo.commandBuffers, fun v (s : SubmitInfo) => { s with commandBuffers := v }⟩) := rfl
  have hlaw : Takes graph (.texts : Content .submitInfo) [] (valuesUnder graph "CommandBuffers" entries).getLast?
      info.commandBuffers := hlaws "CommandBuffers" _ hrule
  have hpairs : pairsOf graph node = entries := by rw [pairsOf, hnode]
  rw [← hpairs] at hlaw
  have hvalues := hlaw.of_once (honce.length_valuesUnder_le hnode (by decide) "CommandBuffers")
  have hparts : List.Forall₂ (fun p part => p.location = [.key "CommandBuffers", .index part.2] ∧
      ∃ own, readText graph p.node = .ok (part.1, own)) (elementsUnder graph "CommandBuffers" node)
      info.commandBuffers.zipIdx := forall₂_elementsUnder hvalues
  refine forall₂_descend (hparts.imp ?_)
  rintro p ⟨name, number⟩ ⟨hlocation, own, hname⟩
  exact ⟨hlocation, .cons ⟨rfl, scalar_of_readText hname⟩ .nil⟩

/-- What is reached from the map of a device is what the device holds: each level goes on with the one below. -/
theorem readsTo_device : ReadsTo graph .device submissionKeys namesOfDevice := by
  have hinfos : Entity.submit.rule? "SubmitInfos" = some (.store (.many .submitInfo (by decide))
      ⟨Submit.infos, fun v (s : Submit) => { s with infos := v }⟩) := rfl
  have hsubmits : Entity.queue.rule? "IncompleteSubmits" = some (.store (.many .submit (by decide))
      ⟨Queue.submits, fun v (s : Queue) => { s with submits := v }⟩) := rfl
  have hqueues : Entity.device.rule? "Queues" = some (.store (.many .queue (by decide))
      ⟨Device.queues, fun v (s : Device) => { s with queues := v }⟩) := rfl
  have hsubmit : ReadsTo graph .submit ["SubmitInfos", "CommandBuffers"] namesOfSubmit :=
    readsTo_info.many (by decide) (by decide) hinfos
  have hqueue : ReadsTo graph .queue ["IncompleteSubmits", "SubmitInfos", "CommandBuffers"] namesOfQueue :=
    hsubmit.many (by decide) (by decide) hsubmits
  exact hqueue.many (by decide) (by decide) hqueues

/-- The names below the root of a dump are those that the dump holds. -/
theorem forall₂_submittedNames {root : α} {dump : Dump} {remarks : List Remark}
    (hread : readDump graph (some root) = .ok (dump, remarks)) (honce : GivesOnce graph (.entity .dump) root) :
    List.Forall₂ (Tells graph ("Device" :: submissionKeys)) (submittedNames graph root) (namesOfDump dump) := by
  have hentity : readEntity graph .dump Entity.dump.initial root = .ok (dump, remarks) := hread
  obtain ⟨entries, hnode, hlaws⟩ := followsLaws_of_readEntity hentity
  have hrule : Entity.dump.rule? "Device" = some (.append .device (by decide)
      ⟨Dump.devices, fun v (s : Dump) => { s with devices := v }⟩) := rfl
  have hlaw : List.Forall₂ (fun node d => ∃ own, readEntity graph .device Entity.device.initial node = .ok (d, own))
      (valuesUnder graph "Device" entries) dump.devices := hlaws "Device" _ hrule
  have hpairs : pairsOf graph root = entries := by rw [pairsOf, hnode]
  have hseen : (devicesUnder graph root).map Placed.seen = (valuesUnder graph "Device" entries).zipIdx.flatMap
      fun value => [(value.1, [.key "Device", .index value.2])] := by
    rw [← hpairs]
    refine map_seen_partsUnder (fun number value => [(value, [.key "Device", .index number])]) ?_
    exact fun _ _ => rfl
  have hparts : List.Forall₂ (fun (seen : α × List Step) part => seen.2 = [.key "Device", .index part.2] ∧
      ∃ own, readEntity graph .device Entity.device.initial seen.1 = .ok (part.1, own))
      ((devicesUnder graph root).map Placed.seen) dump.devices.zipIdx := by
    rw [hseen, ← List.map_eq_flatMap, List.forall₂_map_left_iff]
    exact (forall₂_zipIdx hlaw 0).imp fun _ _ h => ⟨by rw [h.2], h.1⟩
  rw [List.forall₂_map_left_iff] at hparts
  refine forall₂_descend ((List.forall₂_and_left _ _).mpr ⟨fun _ hmem => hmem, hparts⟩ |>.imp ?_)
  rintro p ⟨d, number⟩ ⟨hp, hlocation, own, hown⟩
  exact ⟨hlocation, readsTo_device p.node d own hown (honce.of_leads (leads_of_mem_devicesUnder hp))⟩

/-! ## The walk and the document -/

/-- A submitted name of a dump is that of a node of its document: it is what the dump has at a position, and the node is
known by that position and has the text of the name. -/
inductive StandsFor (graph : Graph α) (dump : Dump) : Placed α → Submitted → Prop
  | at {node : α} {address : Address} {s : Submitted} (device queue submit info name : Nat)
      (found : submittedAt dump [device, queue, submit, info, name] = some s)
      (text : graph node = .scalar s.commandBuffer) :
      StandsFor graph dump ⟨node, address, [.key "Device", .index device, .key "Queues", .index queue,
        .key "IncompleteSubmits", .index submit, .key "SubmitInfos", .index info, .key "CommandBuffers", .index name]⟩ s

/-- The walk through the submissions of a dump agrees with the document. -/
structure WalkAgrees (graph : Graph α) (root : α) (dump : Dump) (names : List (Placed α)) : Prop where
  /-- the names are those that stand under a submit information that the format leads to -/
  complete : ∀ p, p ∈ names ↔ IsSubmittedName graph .dump root p
  /-- they are in the order of the document, so none of them is there twice -/
  ordered : names.Pairwise fun p q => p.address.Before q.address
  /-- each of them is met in its turn, and nothing else is -/
  met : List.Forall₂ (StandsFor graph dump) names (submitted dump)

theorem StandsFor.of_tells {dump : Dump} {p : Placed α} {part : Position × String} {s : Submitted}
    (h : Tells graph ("Device" :: submissionKeys) p part)
    (hs : submittedAt dump part.1 = some s ∧ s.commandBuffer = part.2) : StandsFor graph dump p s := by
  obtain ⟨node, address, location⟩ := p
  obtain ⟨position, name⟩ := part
  obtain ⟨rfl, htext⟩ := h
  obtain ⟨hfound, rfl⟩ := hs
  match position with
  | [device, queue, submit, info, name] => exact .at device queue submit info name hfound htext
  | [] | [_] | [_, _] | [_, _, _] | [_, _, _, _] | _ :: _ :: _ :: _ :: _ :: _ :: _ => cases hfound

theorem walkAgrees_of_readDump {root : α} {dump : Dump} {remarks : List Remark}
    (hread : readDump graph (some root) = .ok (dump, remarks)) (honce : GivesOnce graph (.entity .dump) root) :
    WalkAgrees graph root dump (submittedNames graph root) := by
  refine ⟨fun p => mem_submittedNames_iff, pairwise_submittedNames root, ?_⟩
  exact forall₂_trans (fun _ _ _ h hs => .of_tells h hs) (forall₂_submittedNames hread honce) (forall₂_submitted dump)

/-- The walk through the submissions meets each position of a dump once and in order; and if the dump was read from a
document that gives no key twice except for devices, it meets the names of the document, each once and in order. -/
theorem submitted_agrees (config : Config) (graph : Graph α) (root : α) :
    (∀ file : DumpFile, ∃ positions, Meets file.content positions) ∧
      ∀ file, Reader.ofGraph config graph (some root) = .ok file → GivesOnce graph (.entity .dump) root →
        ∃ names, WalkAgrees graph root file.content names := by
  refine ⟨fun file => ⟨_, meets_positions file.content⟩, fun file hread honce => ?_⟩
  obtain ⟨content, remarks, hdump, rfl⟩ := Reader.ofGraph_eq_ok_iff.mp hread
  exact ⟨_, walkAgrees_of_readDump hdump honce⟩

end

/-- A dump of two devices, the first without queues.  The second has a queue without submissions and one whose second
submit information has two names; its map also stands under a key that is not looked at. -/
def twoNames : Graph Nat
  | 0 => .map [(1, 2), (3, 4), (1, 4)]
  | 1 => .scalar "Device"
  | 2 => .map []
  | 3 => .scalar "SystemInfo"
  | 4 => .map [(5, 6)]
  | 5 => .scalar "Queues"
  | 6 => .sequence [2, 7]
  | 7 => .map [(8, 4), (9, 10)]
  | 8 => .scalar "flags"
  | 9 => .scalar "IncompleteSubmits"
  | 10 => .sequence [11]
  | 11 => .map [(12, 13)]
  | 12 => .scalar "SubmitInfos"
  | 13 => .sequence [2, 14]
  | 14 => .map [(15, 16)]
  | 15 => .scalar "CommandBuffers"
  | 16 => .sequence [17, 18]
  | 17 => .scalar "0x1 [first]"
  | _ => .scalar "second"

/-- No map there gives a key twice except the root, and nothing has the root below it. -/
theorem map_twoNames {node : Nat} {entries : List (Nat × Nat)} (h : twoNames node = .map entries) :
    (∀ entry ∈ entries, entry.2 ≠ 0) ∧ (node ≠ 0 → (keysOf twoNames entries).Nodup) := by
  unfold twoNames at h
  split at h <;> cases h <;> decide

theorem sequence_twoNames {node : Nat} {items : List Nat} (h : twoNames node = .sequence items) : 0 ∉ items := by
  unfold twoNames at h
  split at h <;> cases h <;> decide

theorem root_of_leads_twoNames {form target : Form} {node place : Nat} {address : Address} {location : List Step}
    (h : Leads twoNames form node address location target place) (hplace : place = 0) : node = 0 ∧ target = form := by
  induction h with
  | here form node => exact ⟨hplace, rfl⟩
  | entry shape isKey known rest ih =>
    exact absurd (ih hplace).1 ((map_twoNames shape).1 (_, _) (List.mem_append_right _ List.mem_cons_self))
  | element shape rest ih => exact absurd (ih hplace).1 fun hchild => sequence_twoNames shape (by simp [hchild])

theorem givesOnce_twoNames : GivesOnce twoNames (.entity .dump) 0 := by
  intro address location e place entries key hleads hplace hkey
  by_cases hroot : place = 0
  · subst hroot
    obtain rfl := Form.entity.inj (root_of_leads_twoNames hleads rfl).2
    obtain rfl := Shape.map.inj hplace
    have hkeys : keysOf twoNames [(1, 2), (3, 4), (1, 4)] = ["Device", "SystemInfo", "Device"] := by decide
    have hne : "Device" ≠ key := fun heq => hkey ⟨rfl, heq.symm⟩
    rw [hkeys, List.count_cons_of_ne hne, List.count_cons, List.count_cons_of_ne hne]
    split_ifs <;> simp
  · exact List.nodup_iff_count_le_one.mp ((map_twoNames hplace).2 hroot) key

/-- The two names are met once each, on the second device, though the document has them in three places. -/
theorem submitted_agrees_twoNames :
    ∃ file names positions, Reader.ofGraph {} twoNames (some 0) = .ok file ∧ GivesOnce twoNames (.entity .dump) 0 ∧
      WalkAgrees twoNames 0 file.content names ∧ Meets file.content positions ∧
      (submitted file.content).map (fun s => (s.device, s.commandBuffer)) =
        [(1, "0x1 [first]"), (1, "second")] := by
  have hread : Reader.ofGraph {} twoNames (some 0) = .ok {
      content := { devices := [{}, { queues := [{}, { submits := [{ infos := [{},
        { commandBuffers := ["0x1 [first]", "second"] }] }] }] }] }
      warnings := ["Ignored top level key 'SystemInfo' at SystemInfo",
        "Ignored Queue key 'flags' at Device[1].Queues[1].flags"] } := by
    decide +kernel
  obtain ⟨hpositions, hnames⟩ := submitted_agrees {} twoNames 0
  obtain ⟨names, hwalk⟩ := hnames _ hread givesOnce_twoNames
  obtain ⟨positions, hmeets⟩ := hpositions _
  exact ⟨_, names, positions, hread, givesOnce_twoNames, hwalk, hmeets, rfl⟩

end Postmortem
