import Mathlib.Data.List.Basic
import Mathlib.Data.List.Pairwise
import Mathlib.Logic.Function.Basic
import Postmortem.Dump.Reading
import Postmortem.Proofs.Entries
import Postmortem.Proofs.Outcome
set_option autoImplicit false

/-!
# Slots: the parts of an entity and the keys that fill them

Each key of an entity fills a part of its own: the slots of an entity obey the laws of lenses, do not overlap, and
make up the whole.  So a map is read key by key.  The main statements are `readEntries_fills_all`, which takes a reading
apart into one reading for each key, and `readEntries_of_fills_all`, which puts it together again.
-/

namespace Postmortem

open Postmortem.Node

/-! ## The part that a rule changes -/

/-- What a rule changes in its entity; a key that is not looked at changes nothing. -/
def Rule.Part {e : Entity} : Rule e → Type
  | .store content _ => content.Value
  | .merge part _ _ => part.Value
  | .append item _ _ => List item.Value
  | .ignore => Unit

/-- Where the part of a rule stands. -/
def Rule.slot {e : Entity} : (rule : Rule e) → Slot e.Value rule.Part
  | .store _ slot => slot
  | .merge _ _ slot => slot
  | .append _ _ slot => slot
  | .ignore => ⟨fun _ => (), fun _ s => s⟩

/-- Two rules that do not touch each other's part. -/
structure Rule.Apart {e : Entity} (r r' : Rule e) : Prop where
  right : ∀ x s, r'.slot.get (r.slot.set x s) = r'.slot.get s
  left : ∀ x s, r.slot.get (r'.slot.set x s) = r.slot.get s

namespace Entity

/-- What is put into a slot can be taken out again. -/
theorem slot_get_set (e : Entity) :
    ∀ row ∈ e.schema, ∀ x s, row.2.slot.get (row.2.slot.set x s) = x := by
  cases e <;>
    simp only [schema, Schema.semaphoreInfo, Schema.command, Schema.applicationInfo, Schema.submitInfo,
      Schema.commandBuffer, Schema.apiInstance, Schema.submit, Schema.queue, Schema.device, Schema.dump,
      List.forall_mem_cons] <;>
    and_intros <;> first | exact fun _ _ => rfl | simp

/-- The slots of an entity do not overlap. -/
theorem pairwise_apart (e : Entity) : e.schema.Pairwise fun row row' => row.2.Apart row'.2 := by
  cases e <;>
    simp only [schema, Schema.semaphoreInfo, Schema.command, Schema.applicationInfo, Schema.submitInfo,
      Schema.commandBuffer, Schema.apiInstance, Schema.submit, Schema.queue, Schema.device, Schema.dump,
      List.pairwise_cons, List.forall_mem_cons] <;>
    and_intros <;> first | exact ⟨fun _ _ => rfl, fun _ _ => rfl⟩ | simp

/-- The slots of an entity make up the whole of it. -/
theorem ext_of_slots (e : Entity) {s t : e.Value}
    (h : ∀ row ∈ e.schema, row.2.slot.get s = row.2.slot.get t) : s = t := by
  cases e <;>
    simp only [schema, Schema.semaphoreInfo, Schema.command, Schema.applicationInfo, Schema.submitInfo,
      Schema.commandBuffer, Schema.apiInstance, Schema.submit, Schema.queue, Schema.device, Schema.dump,
      List.forall_mem_cons] at h <;>
    cases s <;> cases t <;> simp_all [Rule.slot, Rule.Part] <;> rfl

/-- No key has two rules. -/
theorem nodup_keys (e : Entity) : (e.schema.map Prod.fst).Nodup := by
  cases e <;> decide

theorem mem_schema_of_rule? {e : Entity} {key : String} {rule : Rule e} (h : e.rule? key = some rule) :
    (key, rule) ∈ e.schema := by
  obtain ⟨front, back, hschema, _⟩ := List.lookup_eq_some_iff.mp h
  rw [hschema]
  simp

theorem rule?_of_mem_schema {e : Entity} {key : String} {rule : Rule e} (h : (key, rule) ∈ e.schema) :
    e.rule? key = some rule := by
  obtain ⟨front, back, hschema⟩ := List.append_of_mem h
  refine List.lookup_eq_some_iff.mpr ⟨front, back, hschema, ?_⟩
  have hnodup := e.nodup_keys
  rw [hschema, List.map_append, List.nodup_append] at hnodup
  intro row hrow
  have hne := hnodup.2.2 row.1 (List.mem_map_of_mem hrow) key (by simp)
  simpa using hne.symm

/-- What one key puts into its slot can be taken out again. -/
theorem get_set {e : Entity} {key : String} {rule : Rule e} (h : e.rule? key = some rule) (x : rule.Part)
    (s : e.Value) : rule.slot.get (rule.slot.set x s) = x :=
  e.slot_get_set _ (mem_schema_of_rule? h) x s

/-- What one key puts into its slot leaves the slots of other keys alone. -/
theorem get_set_of_ne {e : Entity} {key other : String} {rule rule' : Rule e} (h : e.rule? key = some rule)
    (h' : e.rule? other = some rule') (hne : key ≠ other) (x : rule.Part) (s : e.Value) :
    rule'.slot.get (rule.slot.set x s) = rule'.slot.get s := by
  have : Std.Symm fun row row' : String × Rule e => row.2.Apart row'.2 :=
    ⟨fun _ _ hrows => ⟨hrows.left, hrows.right⟩⟩
  have hapart : rule.Apart rule' :=
    e.pairwise_apart.forall (mem_schema_of_rule? h) (mem_schema_of_rule? h')
      fun heq => hne (Prod.mk.inj heq).1
  exact hapart.right x s

/-- Two entities that agree on the slot of every key are equal. -/
theorem ext_of_keys {e : Entity} {s t : e.Value}
    (h : ∀ key rule, e.rule? key = some rule → rule.slot.get s = rule.slot.get t) : s = t := by
  apply e.ext_of_slots
  intro row hrow
  exact h row.1 row.2 (rule?_of_mem_schema hrow)

end Entity

/-! ## Reading key by key -/

section

variable {α : Type} (graph : Graph α)

/-- Reads a value of a key into the part of its rule. -/
def Rule.read {e : Entity} (lower : LowerReader α e) (key : String) (child : α) :
    (rule : Rule e) → rule.Part → Outcome rule.Part
  | .store content _, _ => (readContent graph lower content child).below (.key key)
  | .merge part h _, x => (lower part h x child).below (.key key)
  | .append item h _, (x : List item.Value) =>
    (((lower item h item.initial child).below (.index x.length)).below (.key key)).map fun value => x ++ [value]
  | .ignore, _ => .ok ((), [⟨e, key, [.key key]⟩])

variable {graph}

/-- A rule changes its own part only. -/
theorem applyRule_eq {e : Entity} (lower : LowerReader α e) (key : String) (child : α) (state : e.Value)
    (rule : Rule e) :
    applyRule graph lower key child state rule =
      (rule.read graph lower key child (rule.slot.get state)).map (rule.slot.set · state) := by
  cases rule with
  | store content slot => rfl
  | merge part h slot => rfl
  | append item h slot =>
    simp only [applyRule, Rule.read, Rule.slot]
    cases lower item h item.initial child <;> rfl
  | ignore => rfl

variable (graph)

/-- Reading the values of a key one after another takes the part of its rule from one value to another. -/
inductive Rule.Fills {e : Entity} (lower : LowerReader α e) (key : String) (rule : Rule e) :
    rule.Part → List α → rule.Part → List Remark → Prop where
  | done (x : rule.Part) : Fills lower key rule x [] x []
  | value {x y z : rule.Part} {child : α} {rest : List α} {own more : List Remark}
      (first : rule.read graph lower key child x = .ok (y, own)) (others : Fills lower key rule y rest z more) :
      Fills lower key rule x (child :: rest) z (own ++ more)

variable {graph}

theorem Rule.fills_nil_iff {e : Entity} {lower : LowerReader α e} {key : String} {rule : Rule e}
    {x z : rule.Part} {remarks : List Remark} :
    rule.Fills graph lower key x [] z remarks ↔ x = z ∧ remarks = [] := by
  constructor
  · intro h
    cases h
    exact ⟨rfl, rfl⟩
  · rintro ⟨rfl, rfl⟩
    exact .done x

theorem Rule.fills_cons_iff {e : Entity} {lower : LowerReader α e} {key : String} {rule : Rule e}
    {x z : rule.Part} {child : α} {rest : List α} {remarks : List Remark} :
    rule.Fills graph lower key x (child :: rest) z remarks ↔
      ∃ y own more, rule.read graph lower key child x = .ok (y, own) ∧
        rule.Fills graph lower key y rest z more ∧ remarks = own ++ more := by
  constructor
  · intro h
    cases h with
    | value first others => exact ⟨_, _, _, first, others, rfl⟩
  · rintro ⟨y, own, more, first, others, rfl⟩
    exact .value first others

/-- The last value under a key fills the slot that it is stored in, and the others have to be read as well; without a
value the slot stays as it is. -/
theorem Rule.fills_store_iff {e : Entity} {lower : LowerReader α e} {key : String} {content : Content e}
    {slot : Slot e.Value content.Value} {x z : content.Value} {values : List α} :
    (∃ remarks, (Rule.store content slot).Fills graph lower key x values z remarks) ↔
      (∀ child ∈ values, (readContent graph lower content child).Succeeds) ∧ (values = [] → z = x) ∧
        ∀ last ∈ values.getLast?, ∃ own, readContent graph lower content last = .ok (z, own) := by
  induction values generalizing x with
  | nil =>
    constructor
    · rintro ⟨remarks, h⟩
      obtain ⟨rfl, _⟩ := Rule.fills_nil_iff.mp h
      exact ⟨by simp, fun _ => rfl, by simp⟩
    · rintro ⟨_, hempty, _⟩
      obtain rfl := hempty rfl
      exact ⟨[], Rule.fills_nil_iff.mpr ⟨rfl, rfl⟩⟩
  | cons child rest ih =>
    constructor
    · rintro ⟨remarks, h⟩
      obtain ⟨y, own, more, hread, hrest, _⟩ := Rule.fills_cons_iff.mp h
      obtain ⟨inner, hchild, _⟩ := Outcome.below_eq_ok_iff.mp hread
      obtain ⟨hothers, hempty, hlast⟩ := ih.mp ⟨more, hrest⟩
      refine ⟨List.forall_mem_cons.mpr ⟨⟨y, inner, hchild⟩, hothers⟩, by simp, ?_⟩
      intro last hmem
      cases hrest' : rest.getLast? with
      | none =>
        obtain rfl : rest = [] := List.getLast?_eq_none_iff.mp hrest'
        obtain rfl : child = last := Option.some.inj hmem
        exact ⟨inner, hempty rfl ▸ hchild⟩
      | some other =>
        rw [List.getLast?_cons, hrest'] at hmem
        obtain rfl : other = last := Option.some.inj hmem
        exact hlast other hrest'
    · rintro ⟨hreads, _, hlast⟩
      obtain ⟨⟨y, inner, hchild⟩, hothers⟩ := List.forall_mem_cons.mp hreads
      have hrest : ∃ remarks, (Rule.store content slot).Fills graph lower key y rest z remarks := by
        apply ih.mpr
        refine ⟨hothers, ?_, ?_⟩
        · rintro rfl
          obtain ⟨own, hown⟩ := hlast child rfl
          exact (Prod.mk.inj (Except.ok.inj (hown.symm.trans hchild))).1
        · intro last hmem
          apply hlast
          rw [List.getLast?_cons, Option.mem_def.mp hmem]
          rfl
      obtain ⟨more, hmore⟩ := hrest
      exact ⟨_, .value (Outcome.below_eq_ok_iff.mpr ⟨inner, hchild, rfl⟩) hmore⟩

/-- Each value under a key that appends adds the entity that it is read to by itself. -/
theorem Rule.fills_append {e : Entity} {lower : LowerReader α e} {key : String} {item : Entity}
    {h : item.rank < e.rank} {slot : Slot e.Value (List item.Value)} {x z : List item.Value} {values : List α}
    {remarks : List Remark} (hfills : (Rule.append item h slot).Fills graph lower key x values z remarks) :
    ∃ added, z = x ++ added ∧
      List.Forall₂ (fun node value => ∃ own, lower item h item.initial node = .ok (value, own)) values added := by
  induction values generalizing x remarks with
  | nil =>
    obtain ⟨rfl, _⟩ := Rule.fills_nil_iff.mp hfills
    exact ⟨[], (List.append_nil x).symm, .nil⟩
  | cons child rest ih =>
    obtain ⟨y, own, more, hread, hrest, _⟩ := Rule.fills_cons_iff.mp hfills
    obtain ⟨value, hkey, rfl⟩ := Outcome.map_eq_ok_iff.mp hread
    obtain ⟨_, hindex, _⟩ := Outcome.below_eq_ok_iff.mp hkey
    obtain ⟨inner, hinner, _⟩ := Outcome.below_eq_ok_iff.mp hindex
    obtain ⟨added, hz, hadded⟩ := ih hrest
    exact ⟨value :: added, hz.trans (List.append_assoc x [value] added), .cons ⟨inner, hinner⟩ hadded⟩

/-- Remarks in front of those about one of some keys are in front of those about all of them, order aside. -/
theorem perm_flatMap_update {names : List String} (hnodup : names.Nodup) {name : String} (hname : name ∈ names)
    (front : List Remark) (own : String → List Remark) :
    (front ++ names.flatMap own).Perm (names.flatMap (Function.update own name (front ++ own name))) := by
  obtain ⟨before, after, rfl⟩ := List.append_of_mem hname
  have hbefore : name ∉ before := fun hmem => (List.nodup_append.mp hnodup).2.2 name hmem name (by simp) rfl
  have hafter : name ∉ after := (List.nodup_cons.mp (List.nodup_append.mp hnodup).2.1).1
  have hothers : ∀ list : List String, name ∉ list →
      list.flatMap (Function.update own name (front ++ own name)) = list.flatMap own := by
    intro list hnotin
    apply List.flatMap_congr
    intro other hother
    have hne : other ≠ name := by
      rintro rfl
      exact hnotin hother
    exact Function.update_of_ne hne _ _
  rw [List.flatMap_append, List.flatMap_append, List.flatMap_cons, List.flatMap_cons, hothers before hbefore,
    hothers after hafter, Function.update_self, ← List.append_assoc, List.append_assoc front (own name),
    ← List.append_assoc (before.flatMap own)]
  exact List.perm_append_comm.append_right _

/-- A map that is read fills the slot of each key with the values under that key, whatever else it holds, and leaves the
remarks of all keys. -/
theorem readEntries_fills_all {e : Entity} {lower : LowerReader α e} {entries : List (α × α)}
    {state result : e.Value} {remarks : List Remark}
    (h : readEntries graph lower state entries = .ok (result, remarks)) :
    ∃ own : String → List Remark,
      (∀ key rule, e.rule? key = some rule → rule.Fills graph lower key (rule.slot.get state)
        (valuesUnder graph key entries) (rule.slot.get result) (own key)) ∧
      remarks.Perm ((e.schema.map Prod.fst).flatMap own) := by
  induction entries generalizing state remarks with
  | nil =>
    obtain ⟨rfl, rfl⟩ := Outcome.pure_eq_ok_iff.mp h
    refine ⟨fun _ => [], fun key rule _ => .done _, ?_⟩
    rw [List.flatMap_eq_nil_iff.mpr fun _ _ => rfl]
  | cons entry rest ih =>
    obtain ⟨node, child⟩ := entry
    simp only [readEntries] at h
    split at h
    · rename_i name hname
      split at h
      · exact absurd h (by simp)
      · rename_i first hfirst
        obtain ⟨next, front, back, hnext, hrest, rfl⟩ := Outcome.andThen_eq_ok_iff.mp h
        obtain ⟨own, hfills, hback⟩ := ih hrest
        rw [applyRule_eq] at hnext
        obtain ⟨part, hpart, rfl⟩ := Outcome.map_eq_ok_iff.mp hnext
        refine ⟨Function.update own name (front ++ own name), ?_, ?_⟩
        · -- An entry of another key leaves the slot alone, and its value is not one of those under the key.
          intro key rule hrule
          have hkeyfills := hfills key rule hrule
          by_cases hkey : name = key
          · subst hkey
            obtain rfl : rule = first := Option.some.inj (hrule.symm.trans hfirst)
            rw [valuesUnder_cons_self hname, Function.update_self]
            rw [Entity.get_set hrule] at hkeyfills
            exact .value hpart hkeyfills
          · rw [valuesUnder_cons_of_ne hname hkey, Function.update_of_ne fun heq => hkey heq.symm]
            rw [Entity.get_set_of_ne hfirst hrule hkey] at hkeyfills
            exact hkeyfills
        · have hmem : name ∈ e.schema.map Prod.fst :=
            List.mem_map.mpr ⟨_, Entity.mem_schema_of_rule? hfirst, rfl⟩
          exact (hback.append_left front).trans (perm_flatMap_update e.nodup_keys hmem front own)
    · exact absurd h (by simp)

/-- A map that is read fills the slot of each key with the values under that key. -/
theorem readEntries_fills {e : Entity} {lower : LowerReader α e} {entries : List (α × α)}
    {state result : e.Value} {remarks : List Remark}
    (h : readEntries graph lower state entries = .ok (result, remarks)) {key : String} {rule : Rule e}
    (hrule : e.rule? key = some rule) :
    ∃ own, rule.Fills graph lower key (rule.slot.get state) (valuesUnder graph key entries)
      (rule.slot.get result) own := by
  obtain ⟨own, hfills, _⟩ := readEntries_fills_all h
  exact ⟨own key, hfills key rule hrule⟩

/-- The keys of a map that is read are all known. -/
theorem known_of_readEntries {e : Entity} {lower : LowerReader α e} {entries : List (α × α)} {state result : e.Value}
    {remarks : List Remark} (h : readEntries graph lower state entries = .ok (result, remarks)) :
    ∀ entry ∈ entries, ∃ name rule, graph entry.1 = .scalar name ∧ e.rule? name = some rule := by
  induction entries generalizing state remarks with
  | nil => simp
  | cons entry rest ih =>
    simp only [readEntries] at h
    split at h
    · rename_i name hname
      split at h
      · exact absurd h (by simp)
      · rename_i rule hrule
        obtain ⟨next, _, _, _, hrest, _⟩ := Outcome.andThen_eq_ok_iff.mp h
        exact List.forall_mem_cons.mpr ⟨⟨name, rule, hname, hrule⟩, ih hrest⟩
    · exact absurd h (by simp)

/-- A map whose values fill the slot of each key is read to what the slots then hold, and leaves no remark but those of
its keys. -/
theorem readEntries_of_fills_all {e : Entity} {lower : LowerReader α e} {entries : List (α × α)}
    {state result : e.Value} {own : String → List Remark}
    (hkeys : ∀ entry ∈ entries, ∃ name rule, graph entry.1 = .scalar name ∧ e.rule? name = some rule)
    (hfills : ∀ key rule, e.rule? key = some rule → rule.Fills graph lower key (rule.slot.get state)
      (valuesUnder graph key entries) (rule.slot.get result) (own key)) :
    ∃ remarks, readEntries graph lower state entries = .ok (result, remarks) ∧ ∀ r ∈ remarks, ∃ key, r ∈ own key := by
  induction entries generalizing state own with
  | nil =>
    have heq : state = result := by
      apply Entity.ext_of_keys
      intro key rule hrule
      exact (Rule.fills_nil_iff.mp (hfills key rule hrule)).1
    exact ⟨[], Outcome.pure_eq_ok_iff.mpr ⟨heq, rfl⟩, by simp⟩
  | cons entry rest ih =>
    obtain ⟨node, child⟩ := entry
    obtain ⟨name, rule, hname, hrule⟩ := hkeys (node, child) (by simp)
    have hown := hfills name rule hrule
    rw [valuesUnder_cons_self hname] at hown
    obtain ⟨part, front, more, hpart, hmore, hremarks⟩ := Rule.fills_cons_iff.mp hown
    have happly : applyRule graph lower name child state rule = .ok (rule.slot.set part state, front) := by
      rw [applyRule_eq]
      exact Outcome.map_eq_ok_iff.mpr ⟨part, hpart, rfl⟩
    have hrest : ∃ back, readEntries graph lower (rule.slot.set part state) rest = .ok (result, back) ∧
        ∀ r ∈ back, ∃ key, r ∈ Function.update own name more key := by
      apply ih
      · intro entry hentry
        exact hkeys entry (List.mem_cons_of_mem _ hentry)
      · -- The entry has filled the slot of its own key, and the other slots are as they were.
        intro key other hother
        by_cases hkey : name = key
        · subst hkey
          obtain rfl : rule = other := Option.some.inj (hrule.symm.trans hother)
          rw [Entity.get_set hrule, Function.update_self]
          exact hmore
        · have hfill := hfills key other hother
          rw [valuesUnder_cons_of_ne hname hkey] at hfill
          rw [Entity.get_set_of_ne hrule hother hkey, Function.update_of_ne (Ne.symm hkey)]
          exact hfill
    obtain ⟨back, hback, hmade⟩ := hrest
    refine ⟨front ++ back, ?_, ?_⟩
    · simp only [readEntries, hname, hrule]
      exact Outcome.andThen_eq_ok_iff.mpr ⟨_, front, back, happly, hback, rfl⟩
    · intro r hr
      rcases List.mem_append.mp hr with hfront | hr
      · exact ⟨name, hremarks ▸ List.mem_append_left _ hfront⟩
      · obtain ⟨key, hkey⟩ := hmade r hr
        by_cases heq : key = name
        · subst heq
          rw [Function.update_self] at hkey
          exact ⟨key, hremarks ▸ List.mem_append_right _ hkey⟩
        · rw [Function.update_of_ne heq] at hkey
          exact ⟨key, hkey⟩

/-- A map whose values fill the slot of each key is read, whatever the remarks. -/
theorem exists_readEntries_of_fills {e : Entity} {lower : LowerReader α e} {entries : List (α × α)}
    {state result : e.Value}
    (hkeys : ∀ entry ∈ entries, ∃ name rule, graph entry.1 = .scalar name ∧ e.rule? name = some rule)
    (hfills : ∀ key rule, e.rule? key = some rule → ∃ own, rule.Fills graph lower key (rule.slot.get state)
      (valuesUnder graph key entries) (rule.slot.get result) own) :
    ∃ remarks, readEntries graph lower state entries = .ok (result, remarks) := by
  have hown : ∀ key, ∃ own, ∀ rule, e.rule? key = some rule → rule.Fills graph lower key (rule.slot.get state)
      (valuesUnder graph key entries) (rule.slot.get result) own := by
    intro key
    cases hrule : e.rule? key with
    | none => exact ⟨[], by simp⟩
    | some rule =>
      obtain ⟨own, hrule⟩ := hfills key rule hrule
      refine ⟨own, ?_⟩
      intro other hother
      rw [← Option.some.inj hother]
      exact hrule
  choose own hown using hown
  obtain ⟨remarks, hread, _⟩ := readEntries_of_fills_all hkeys hown
  exact ⟨remarks, hread⟩

/-- A map whose values fill the slot of each key without a remark is read without one. -/
theorem readEntries_of_fills {e : Entity} {lower : LowerReader α e} {entries : List (α × α)}
    {state result : e.Value}
    (hkeys : ∀ entry ∈ entries, ∃ name rule, graph entry.1 = .scalar name ∧ e.rule? name = some rule)
    (hfills : ∀ key rule, e.rule? key = some rule →
      rule.Fills graph lower key (rule.slot.get state) (valuesUnder graph key entries) (rule.slot.get result) []) :
    readEntries graph lower state entries = .ok (result, []) := by
  obtain ⟨remarks, hread, hnone⟩ :=
    @readEntries_of_fills_all _ _ _ lower entries state result (fun _ => []) hkeys hfills
  have hempty : remarks = [] := by
    apply List.eq_nil_iff_forall_not_mem.mpr
    intro r hr
    obtain ⟨_, hmem⟩ := hnone r hr
    exact absurd hmem (by simp)
  rw [hread, hempty]

end

end Postmortem
