import Postmortem.Proofs.Independence
set_option autoImplicit false

/-!
# Repeated keys: which occurrence counts

A map may give a key more than once.  What becomes of the values depends on the rule of the key alone: the last one is
stored, the description of the application is put together field by field, each device is added, and some are not looked
at.  `Rule.Law` says this of a map and of what it is read to, without the reader and its state.  The main statement is
`followsLaws_of_readEntity`.
-/

namespace Postmortem

open Postmortem.Node

/-! ## Stored values -/

/-- The keys whose values are not stored. -/
def unstoredKeys : List String := ["Device", "applicationInfo"] ++ unreadKeys

/-- Whether a value is stored depends on its key alone. -/
theorem Entity.isStore_iff (e : Entity) :
    ∀ row ∈ e.schema, (∃ content slot, row.2 = Rule.store content slot) ↔ row.1 ∉ unstoredKeys := by
  cases e <;>
    simp only [schema, Schema.semaphoreInfo, Schema.command, Schema.applicationInfo, Schema.submitInfo,
      Schema.commandBuffer, Schema.apiInstance, Schema.submit, Schema.queue, Schema.device, Schema.dump,
      List.forall_mem_cons] <;>
    and_intros <;> simp [unstoredKeys, unreadKeys]

/-! ## Laws -/

section

variable {α : Type} (graph : Graph α)

/-- Reads the value of a key that is stored, by itself. -/
def readValue {e : Entity} (content : Content e) (node : α) : Outcome content.Value :=
  readContent graph (fun item _ start node => readEntity graph item start node) content node

/-- What a slot holds at the end: what the node that counts is read to, or what it held at first if no node counts. -/
def Takes {e : Entity} (content : Content e) (first : content.Value) : Option α → content.Value → Prop
  | none, value => value = first
  | some node, value => ∃ remarks, readValue graph content node = .ok (value, remarks)

/-- The last value under a key in the last of some maps that has the key at all. -/
inductive LastIn (key : String) : List α → Option α → Prop where
  | nowhere {maps : List α} (absent : ∀ map ∈ maps, key ∉ keysOf graph (pairsOf graph map)) : LastIn key maps none
  | within {front back : List α} {map value : α}
      (last : (valuesUnder graph key (pairsOf graph map)).getLast? = some value)
      (absent : ∀ later ∈ back, key ∉ keysOf graph (pairsOf graph later)) :
      LastIn key (front ++ map :: back) (some value)

/-- What a slot holds, by what it held at first and by the values under its key. -/
def Rule.Law {e : Entity} : (rule : Rule e) → List α → rule.Part → rule.Part → Prop
  | .store content _, values, first, x => Takes graph content first values.getLast? x
  | .merge part _ _, values, first, x =>
    ∀ key rule, part.rule? key = some rule →
      ∃ content field, rule = .store content field ∧
        ∃ last, LastIn graph key values last ∧ Takes graph content (field.get first) last (field.get x)
  | .append item _ _, values, _, (x : List item.Value) =>
    List.Forall₂ (fun node value => ∃ remarks, readEntity graph item item.initial node = .ok (value, remarks)) values x
  | .ignore, _, _, _ => True

/-- A node is a map, and each slot of the value holds what its key says. -/
def Entity.FollowsLaws (e : Entity) (node : α) (value : e.Value) : Prop :=
  ∃ entries, graph node = .map entries ∧ ∀ key rule, e.rule? key = some rule →
    rule.Law graph (valuesUnder graph key entries) (rule.slot.get e.initial) (rule.slot.get value)

/-! ## Readings -/

variable {graph}

/-- A map that is read fills the slot of each key with the values under that key. -/
theorem fills_of_readEntity {e : Entity} {start value : e.Value} {node : α} {remarks : List Remark}
    (h : readEntity graph e start node = .ok (value, remarks)) :
    ∃ entries, graph node = .map entries ∧ ∀ key rule, e.rule? key = some rule →
      ∃ own, rule.Fills graph (fun item _ start node => readEntity graph item start node) key (rule.slot.get start)
        (valuesUnder graph key entries) (rule.slot.get value) own := by
  rw [readEntity_eq, readMap] at h
  split at h
  · rename_i entries hnode
    obtain ⟨result, _, _, hentries, hchecked, _⟩ := Outcome.andThen_eq_ok_iff.mp h
    obtain ⟨_, rfl, _⟩ := checked_eq_ok_iff.mp hchecked
    exact ⟨entries, hnode, fun key rule hrule => readEntries_fills hentries hrule⟩
  · exact absurd h (by simp)

theorem takes_of_fills {e : Entity} {key : String} {content : Content e} {slot : Slot e.Value content.Value}
    {first x : content.Value} {values : List α} {remarks : List Remark}
    (h : (Rule.store content slot).Fills graph (fun item _ start node => readEntity graph item start node) key first
      values x remarks) : Takes graph content first values.getLast? x := by
  obtain ⟨_, hempty, hlast⟩ := Rule.fills_store_iff.mp ⟨remarks, h⟩
  cases hvalues : values.getLast? with
  | none => exact hempty (List.getLast?_eq_none_iff.mp hvalues)
  | some last => exact hlast last hvalues

/-- The keys of what is merged are all stored. -/
theorem Entity.exists_store_of_merged {e : Entity} (he : e = .applicationInfo) :
    ∀ row ∈ e.schema, ∃ content slot, row.2 = Rule.store content slot := by
  subst he
  have hkeys : ∀ row ∈ Entity.applicationInfo.schema, row.1 ∉ unstoredKeys := by decide
  exact fun row hrow => (Entity.isStore_iff .applicationInfo row hrow).mpr (hkeys row hrow)

theorem valuesUnder_eq_nil_iff {key : String} {entries : List (α × α)} :
    valuesUnder graph key entries = [] ↔ key ∉ keysOf graph entries := by
  rw [List.eq_nil_iff_forall_not_mem, mem_keysOf]
  constructor
  · rintro h ⟨entry, hentry, hkey⟩
    exact h entry.2 (mem_valuesUnder.mpr ⟨entry, hentry, hkey, rfl⟩)
  · intro h child hchild
    obtain ⟨entry, hentry, hkey, _⟩ := mem_valuesUnder.mp hchild
    exact h ⟨entry, hentry, hkey⟩

/-- The map in front of others counts if none of the others has the key. -/
theorem LastIn.cons {key : String} {maps : List α} {last : Option α} (map : α) (h : LastIn graph key maps last) :
    LastIn graph key (map :: maps) (last.or (valuesUnder graph key (pairsOf graph map)).getLast?) := by
  cases h with
  | @within front back later value hlast absent =>
    have hfront : LastIn graph key ((map :: front) ++ later :: back) (some value) := .within hlast absent
    exact hfront
  | nowhere absent =>
    cases hvalue : (valuesUnder graph key (pairsOf graph map)).getLast? with
    | none =>
      have hnone : key ∉ keysOf graph (pairsOf graph map) :=
        valuesUnder_eq_nil_iff.mp (List.getLast?_eq_none_iff.mp hvalue)
      exact .nowhere (List.forall_mem_cons.mpr ⟨hnone, absent⟩)
    | some value =>
      have hfirst : LastIn graph key ([] ++ map :: maps) (some value) := .within hvalue absent
      exact hfirst

/-- A slot that is filled twice holds what counts for the second filling, or else what counts for the first. -/
theorem Takes.trans {e : Entity} {content : Content e} {first next x : content.Value} {own last : Option α}
    (h : Takes graph content first own next) (h' : Takes graph content next last x) :
    Takes graph content first (last.or own) x := by
  cases last with
  | none =>
    obtain rfl : x = next := h'
    exact h
  | some node => exact h'

/-- A field of what is merged holds the last value under its key in the last map that has the key. -/
theorem lastIn_of_fills_merge {e part : Entity} {hpart : part.rank < e.rank} {slot : Slot e.Value part.Value}
    {key inner : String} {content : Content part} {field : Slot part.Value content.Value}
    (hinner : part.rule? inner = some (.store content field)) {first x : part.Value} {maps : List α}
    {remarks : List Remark}
    (h : (Rule.merge part hpart slot).Fills graph (fun item _ start node => readEntity graph item start node) key first
      maps x remarks) :
    ∃ last, LastIn graph inner maps last ∧ Takes graph content (field.get first) last (field.get x) := by
  induction maps generalizing first remarks with
  | nil =>
    obtain ⟨rfl, _⟩ := Rule.fills_nil_iff.mp h
    exact ⟨none, .nowhere (by simp), rfl⟩
  | cons map later ih =>
    obtain ⟨next, _, _, hread, hlater, _⟩ := Rule.fills_cons_iff.mp h
    obtain ⟨_, hmap, _⟩ := Outcome.below_eq_ok_iff.mp hread
    obtain ⟨entries, hnode, hfills⟩ := fills_of_readEntity hmap
    obtain ⟨_, hfield⟩ := hfills inner _ hinner
    have hown : Takes graph content (field.get first) (valuesUnder graph inner (pairsOf graph map)).getLast?
        (field.get next) := by
      rw [pairsOf, hnode]
      exact takes_of_fills hfield
    obtain ⟨last, hlast, htakes⟩ := ih hlater
    exact ⟨_, hlast.cons map, hown.trans htakes⟩

/-- A slot for a list of entities has none at first. -/
def Rule.StartsEmpty {e : Entity} : Rule e → Prop
  | .store (.many _ _) slot => slot.get e.initial = []
  | .append _ _ slot => slot.get e.initial = []
  | _ => True

theorem Entity.startsEmpty_of_rule? {e : Entity} {key : String} {rule : Rule e} (hrule : e.rule? key = some rule) :
    rule.StartsEmpty := by
  have hrows : ∀ row ∈ e.schema, row.2.StartsEmpty := by
    cases e <;>
      simp only [schema, Schema.semaphoreInfo, Schema.command, Schema.applicationInfo, Schema.submitInfo,
        Schema.commandBuffer, Schema.apiInstance, Schema.submit, Schema.queue, Schema.device, Schema.dump,
        List.forall_mem_cons] <;>
      and_intros <;> first | trivial | rfl | simp
  exact hrows _ (mem_schema_of_rule? hrule)

/-- The slot of each key holds what the law of its rule says. -/
theorem Rule.law_of_fills {e : Entity} {key : String} {rule : Rule e} (hrule : e.rule? key = some rule)
    {x : rule.Part} {values : List α} {remarks : List Remark}
    (h : rule.Fills graph (fun item _ start node => readEntity graph item start node) key (rule.slot.get e.initial)
      values x remarks) : rule.Law graph values (rule.slot.get e.initial) x := by
  cases rule with
  | store content slot => exact takes_of_fills h
  | merge part hpart slot =>
    intro inner field hfield
    have hmerged : part = .applicationInfo := e.merged?_eq _ (Entity.mem_schema_of_rule? hrule) part rfl
    obtain ⟨content, place, hstore⟩ :=
      Entity.exists_store_of_merged hmerged _ (Entity.mem_schema_of_rule? hfield)
    obtain rfl : field = .store content place := hstore
    exact ⟨content, place, rfl, lastIn_of_fills_merge hfield h⟩
  | append item hitem slot =>
    obtain ⟨added, hx, hadded⟩ := Rule.fills_append h
    have hempty : slot.get e.initial = [] := Entity.startsEmpty_of_rule? hrule
    obtain rfl : x = added := by
      rw [hx]
      change slot.get e.initial ++ added = added
      rw [hempty, List.nil_append]
    exact hadded
  | ignore => trivial

/-- An entity that is read follows the laws of its keys. -/
theorem followsLaws_of_readEntity {e : Entity} {value : e.Value} {node : α} {remarks : List Remark}
    (h : readEntity graph e e.initial node = .ok (value, remarks)) : e.FollowsLaws graph node value := by
  obtain ⟨entries, hnode, hfills⟩ := fills_of_readEntity h
  refine ⟨entries, hnode, ?_⟩
  intro key rule hrule
  obtain ⟨own, hown⟩ := hfills key rule hrule
  exact Rule.law_of_fills hrule hown

/-- Each map that the format leads to in a document that is read is read by itself. -/
theorem exists_readEntity_of_leads {root node : α} {e : Entity} {address : Address} {location : List Step}
    (hread : (readDump graph (some root)).Succeeds)
    (h : Leads graph (.entity .dump) root address location (.entity e) node) :
    ∃ value remarks, readEntity graph e e.initial node = .ok (value, remarks) := by
  obtain ⟨top, hroot, hconforms⟩ := succeeds_readDump_iff.mp hread
  obtain rfl := Option.some.inj hroot
  exact (agrees_readEntity e e.initial (Or.inr rfl) node).succeeds.mpr (h.conforms hconforms)

end

end Postmortem
