import Postmortem.Proofs.Editing
import Postmortem.Proofs.Log
set_option autoImplicit false

/-!
# Independence: what is not looked at has no influence

The value of a key that nothing is asked of may be replaced by anything, and a key of this kind may be added with
anything under it: the reading ends as before, but for a warning about what was added at each place where it is met.
This is so because the entry is read to the same state as before, whatever is under it.  It has to be left out where the
map is also read as something else, which takes aliases: settings look at the values of all their keys.
-/

namespace Postmortem

open Postmortem.Node

/-! ## Keys -/

/-- The keys of whose values nothing is asked. -/
def unreadKeys : List String := ["SystemInfo", "flags", "parameters", "internalState"]

theorem Entity.mem_unreadKeys_iff (e : Entity) : ∀ row ∈ e.format, row.1 ∈ unreadKeys ↔ row.2 = .anything := by
  cases e <;> decide

/-- An entity that has one of these keys does not look at its value. -/
theorem Entity.eq_anything {e : Entity} {name : String} {form : Form} (hname : name ∈ unreadKeys)
    (h : e.format.lookup name = some form) : form = .anything :=
  (e.mem_unreadKeys_iff _ (mem_format h)).mp hname

section

variable {α : Type} {graph : Graph α}

/-- An entry of which nothing is asked leaves the state as it is. -/
theorem readEntry_unread {e : Entity} (lower : LowerReader α e) (state : e.Value) {key : α} (child : α) {name : String}
    (hkey : graph key = .scalar name) (hunasked : e.format.lookup name = some .anything) :
    readEntry graph lower state (key, child) = .ok (state, [⟨e, name, [.key name]⟩]) := by
  rw [e.lookup_format] at hunasked
  obtain ⟨rule, hrule, hform⟩ := Option.map_eq_some_iff.mp hunasked
  obtain rfl := Rule.eq_ignore hform
  rw [readEntry]
  dsimp only
  rw [hkey]
  dsimp only
  rw [hrule]
  rfl

/-- The steps to a value do not count what stands under other keys than that of the devices. -/
theorem stepsTo_inserted {name : String} (hname : name ∈ unreadKeys) {key : α} (hkey : graph key = .scalar name)
    (form : Form) (asked : String) (front : List (α × α)) (child : α) (before : List (α × α)) :
    form.stepsTo asked (valuesUnder graph asked (front ++ (key, child) :: before)).length =
      form.stepsTo asked (valuesUnder graph asked (front ++ before)).length := by
  unfold Form.stepsTo
  split
  · rename_i hdevice
    have hne : name ≠ "Device" := by
      intro heq
      rw [heq] at hname
      exact absurd hname (by decide)
    rw [hdevice.2, valuesUnder_append, valuesUnder_cons_of_ne hkey hne, ← valuesUnder_append]
  · rfl

end

/-! ## Edits -/

section

variable {α : Type} {graph graph' : Graph α} {root m key child' : α} {name : String} {front back : List (α × α)}

/-- A value of which nothing is asked may be replaced. -/
theorem change_of_replaced {child : α} (hname : name ∈ unreadKeys) (hkey : graph key = .scalar name)
    (hbefore : graph m = .map (front ++ (key, child) :: back))
    (hafter : graph' m = .map (front ++ (key, child') :: back))
    (helsewhere : ∀ node, node ≠ m → graph' node = graph node) (hsettings : ¬ Visits graph root .settings m) :
    Change True graph graph' root m front [(key, child)] [(key, child')] back := by
  have hne : key ≠ m := by
    intro heq
    rw [heq, hbefore] at hkey
    cases hkey
  have hkey' : graph' key = .scalar name := (helsewhere key hne).trans hkey
  refine ⟨by simpa using hbefore, by simpa using hafter, helsewhere, hsettings, ?_⟩
  intro e lower lower' state _
  apply Outcome.Same.of_eq
  rw [Outcome.foldl, Outcome.foldl]
  cases hlookup : e.format.lookup name with
  | some form =>
    obtain rfl := Entity.eq_anything hname hlookup
    rw [readEntry_unread lower state child hkey hlookup, readEntry_unread lower' state child' hkey' hlookup]
    rfl
  | none =>
    -- An entity without the key refuses the map at the key.
    have hrule : e.rule? name = none := by
      rw [e.lookup_format] at hlookup
      exact Option.map_eq_none_iff.mp hlookup
    simp only [readEntry, hkey, hkey', hrule]
    rfl

/-- An entry of which nothing is asked may be added, if the remarks are not told. -/
theorem change_of_inserted (hkey : graph key = .scalar name)
    (hbefore : graph m = .map (front ++ back)) (hafter : graph' m = .map (front ++ (key, child') :: back))
    (helsewhere : ∀ node, node ≠ m → graph' node = graph node)
    (hunasked : ∀ form, Visits graph root form m → form.kind? = some .map → form.under name = some .anything) :
    Change False graph graph' root m front [] [(key, child')] back := by
  have hne : key ≠ m := by
    intro heq
    rw [heq, hbefore] at hkey
    cases hkey
  have hkey' : graph' key = .scalar name := (helsewhere key hne).trans hkey
  refine ⟨by simpa using hbefore, by simpa using hafter, helsewhere, ?_, ?_⟩
  · intro hsettings
    exact absurd (hunasked .settings hsettings rfl) (by simp [Form.under])
  · intro e lower lower' state hvisits
    have hlookup : e.format.lookup name = some .anything := hunasked (.entity e) hvisits rfl
    rw [Outcome.foldl, Outcome.foldl, readEntry_unread lower' state child' hkey' hlookup]
    exact .value state fun htold => htold.elim

end

/-! ## The log of an edited document -/

section

variable {α : Type} [DecidableEq α]

/-- Whether an unread entry is the one with a number in a map. -/
def Occurrence.isAt (m : α) (number : Nat) (o : Occurrence α) : Bool := o.map = m && o.number = number

/-- The remarks about the unread entries other than the one with a number in a map. -/
def remarksBut (m : α) (number : Nat) (log : List (Occurrence α)) : List Remark :=
  (log.filter fun o => !o.isAt m number).map Occurrence.remark

theorem remarksBut_below (m : α) (number : Nat) (move : Move) (steps : List Step) (log : List (Occurrence α)) :
    remarksBut m number (log.map (·.below move steps)) = (remarksBut m number log).map (Remark.behind steps) :=
  remarks_filter_below (fun _ => rfl) log

theorem remarksBut_flatMap {ι : Type} (m : α) (number : Nat) (list : List ι) (f : ι → List (Occurrence α)) :
    remarksBut m number (list.flatMap f) = list.flatMap fun x => remarksBut m number (f x) := by
  unfold remarksBut
  rw [List.filter_flatMap, List.map_flatMap]

variable {graph graph' : Graph α} {m : α} {number : Nat}

/-- The remarks at an entry do not depend on where it stands in its map, unless it is a numbered device. -/
theorem remarksBut_unreadAt {e : Entity} {node : α} {front front' : List (α × α)} {entry : α × α}
    {lower lower' : (inner : Form) → inner.height < (Form.entity e).height → α → List (Occurrence α)}
    (hkeys : keyOf graph' = keyOf graph) (hother : ¬ (node = m ∧ front'.length = number))
    (hsteps : ∀ name, (Form.entity e).stepsTo name (valuesUnder graph' name front').length =
      (Form.entity e).stepsTo name (valuesUnder graph name front).length)
    (hlower : ∀ inner h child, remarksBut m number (lower' inner h child) =
      (lower inner h child).map Occurrence.remark) :
    remarksBut m number (unreadAt graph' e lower' node front' entry) =
      (unreadAt graph e lower node front entry).map Occurrence.remark := by
  have hbelow : ∀ (o : Occurrence α) steps,
      (!(o.below (.entry front'.length) steps).isAt m number) = !o.isAt m number := fun _ _ => rfl
  have hself : ∀ name, (!Occurrence.isAt m number ⟨e, name, node, front'.length, [], []⟩) = true := by
    intro name
    have hat : Occurrence.isAt m number ⟨e, name, node, front'.length, [], []⟩ = false := by
      simpa [Occurrence.isAt] using hother
    rw [hat]
    rfl
  rw [remarksBut, ← List.filter_true (unreadAt graph e lower node front entry)]
  refine remarks_unreadAt_congr hkeys hsteps hself (fun _ _ => rfl) hbelow ?_
  intro inner h
  rw [List.filter_true]
  exact hlower inner h entry.2

/-- What is collected along a list is the same with a member more, if nothing is collected at it, and the others do not
mind it. -/
theorem flatMap_withFronts_inserted {ι ρ : Type} {front back : List ι} {x : ι} {f f' : List ι × ι → List ρ}
    (hfront : ∀ part ∈ withFronts [] front, f' part = f part) (hself : f' (front, x) = [])
    (hback : ∀ part ∈ withFronts [] back, f' (front ++ x :: part.1, part.2) = f (front ++ part.1, part.2)) :
    (withFronts [] (front ++ x :: back)).flatMap f' = (withFronts [] (front ++ back)).flatMap f := by
  rw [withFronts_append, withFronts_append, List.flatMap_append, List.flatMap_append, List.flatMap_congr hfront,
    List.nil_append, withFronts, List.flatMap_cons, hself, List.nil_append, withFronts_eq_map (front ++ [x]),
    withFronts_eq_map front, List.flatMap_map, List.flatMap_map]
  congr 1
  apply List.flatMap_congr
  intro part hpart
  rw [List.append_assoc]
  exact hback part hpart

/-- A new entry of which nothing is asked leaves no remark but its own. -/
theorem remarksBut_unreadAt_self {e : Entity} {front : List (α × α)} {key child : α} {name : String}
    {lower : (inner : Form) → inner.height < (Form.entity e).height → α → List (Occurrence α)}
    (hname : name ∈ unreadKeys) (hkey : graph key = .scalar name) :
    remarksBut m front.length (unreadAt graph e lower m front (key, child)) = [] := by
  cases hlookup : (Form.entity e).under name with
  | none => rw [unreadAt_of_unknown hkey hlookup]; rfl
  | some form =>
    obtain rfl := Entity.eq_anything hname hlookup
    rw [unreadAt_of_unasked hkey hlookup]
    simp [remarksBut, Occurrence.isAt]

section

variable {root key child' : α} {name : String} {front back : List (α × α)}

/-- What is collected in an entity is the same with the new entry, but for the remark about it. -/
theorem remarksBut_unreadIn_entity (hname : name ∈ unreadKeys) (hkey : graph key = .scalar name)
    (h : Change False graph graph' root m front [] [(key, child')] back) (e : Entity) (node : α)
    (hlower : ∀ inner, inner.height < (Form.entity e).height → ∀ child,
      remarksBut m front.length (unreadIn graph' inner child) = (unreadIn graph inner child).map Occurrence.remark) :
    remarksBut m front.length (unreadIn graph' (.entity e) node) =
      (unreadIn graph (.entity e) node).map Occurrence.remark := by
  rw [unreadIn_entity, unreadIn_entity, remarksBut_flatMap, List.map_flatMap]
  by_cases hnode : node = m
  · -- The entries in front of the new one are where they were, and those behind are one further on.
    subst hnode
    have hbefore : graph node = .map (front ++ back) := by simpa using h.before
    have hafter : graph' node = .map (front ++ (key, child') :: back) := by simpa using h.after
    rw [pairsOf, pairsOf, hbefore, hafter]
    apply flatMap_withFronts_inserted
    · intro part hpart
      obtain ⟨between, after, hsplit, hbetween⟩ := mem_withFronts_iff.mp hpart
      refine remarksBut_unreadAt h.keyOf_eq ?_ (fun asked => by rw [h.valuesUnder_eq]) hlower
      intro hat
      have hlength := congrArg List.length hsplit
      rw [hbetween, List.nil_append] at hat
      rw [List.length_append, List.length_cons] at hlength
      omega
    · exact remarksBut_unreadAt_self hname (h.scalar_eq hkey)
    · intro part _
      refine remarksBut_unreadAt h.keyOf_eq ?_ ?_ hlower
      · intro hat
        rw [List.length_append, List.length_cons] at hat
        omega
      · intro asked
        rw [h.valuesUnder_eq, stepsTo_inserted hname hkey]
  · rw [pairsOf, pairsOf, h.elsewhere node hnode]
    apply List.flatMap_congr
    intro part _
    exact remarksBut_unreadAt h.keyOf_eq (fun hat => hnode hat.1) (fun asked => by rw [h.valuesUnder_eq]) hlower

/-- The remarks about a document with an entry more are those about the one without it, and those about the entry. -/
theorem remarksBut_unreadIn (hname : name ∈ unreadKeys) (hkey : graph key = .scalar name)
    (h : Change False graph graph' root m front [] [(key, child')] back) (form : Form) (node : α) :
    remarksBut m front.length (unreadIn graph' form node) = (unreadIn graph form node).map Occurrence.remark := by
  induction form using Form.inductionOnHeight generalizing node with
  | entity e ih => exact remarksBut_unreadIn_entity hname hkey h e node ih
  | sequence item ih =>
    have hitems : itemsOf graph' node = itemsOf graph node := by
      rcases h.cases_of node with heq | ⟨_, hbefore, hafter⟩
      · rw [itemsOf, itemsOf, heq]
      · rw [itemsOf, itemsOf, hbefore, hafter]
    rw [unreadIn_sequence, unreadIn_sequence, remarksBut_flatMap, List.map_flatMap, hitems]
    apply List.flatMap_congr
    intro part _
    rw [remarksBut_below, ih, List.map_map, List.map_map]
    apply List.map_congr_left
    intro o _
    simp
  | leaf form hentity hsequence =>
    rw [unreadIn_eq_nil hentity hsequence, unreadIn_eq_nil hentity hsequence]
    rfl

end

end

/-! ## The results -/

section

variable {α : Type} {graph graph' : Graph α} {root : α}

theorem ofGraph_of_same (config : Config) (h : Outcome.Same True (readDump graph (some root)) (readDump graph' (some root))) :
    Reader.ofGraph config graph' (some root) = Reader.ofGraph config graph (some root) := by
  rw [Reader.ofGraph, Reader.ofGraph, h.eq]

/-- Where the remarks are not told, the dumps may differ in their warnings. -/
theorem silent_ofGraph_of_same (config : Config)
    (h : Outcome.Same False (readDump graph (some root)) (readDump graph' (some root))) :
    (Reader.ofGraph config graph' (some root)).map DumpFile.silent =
      (Reader.ofGraph config graph (some root)).map DumpFile.silent := by
  rw [Reader.ofGraph, Reader.ofGraph]
  generalize readDump graph (some root) = o at h ⊢
  generalize readDump graph' (some root) = o' at h ⊢
  cases h with
  | value value h => rfl
  | refusal refusal => rfl

/-- What the format leads to in a conforming node conforms. -/
theorem Leads.conforms {limit : Option Nat} {form target : Form} {node place : α} {address : Address}
    {location : List Step} (h : Leads graph form node address location target place)
    (hnode : Conforms graph limit form node) : Conforms graph limit target place := by
  induction h with
  | here form node => exact hnode
  | @entry form inner target node key child place name front back address location shape isKey known rest ih =>
    obtain ⟨entries, hshape, hentries, _⟩ := (conforms_map_iff (Form.kind?_of_under known)).mp hnode
    obtain rfl := Shape.map.inj (shape.symm.trans hshape)
    exact ih (hentries.conform (key, child) (by simp) name inner isKey known)
  | element shape rest ih =>
    obtain ⟨items, hshape, hitems⟩ := conforms_sequence_iff.mp hnode
    obtain rfl := Shape.sequence.inj (shape.symm.trans hshape)
    exact ih (hitems _ (by simp))

variable [DecidableEq α] {m : α} {number : Nat} {name : String}

/-- The warnings of a document are those of another one and, for each way to a map, one about an entry of the map. -/
def WarnsAlso (graph : Graph α) (root m : α) (number : Nat) (name : String) (warnings warnings' : List String) : Prop :=
  ∃ log, IsLog graph root log warnings' ∧ warnings = (log.filter fun o => !o.isAt m number).map Occurrence.line ∧
    ∀ o, (o ∈ log ∧ o.isAt m number = true) ↔
      (o.isAt m number = true ∧ o.key = name ∧
        Leads graph (.entity .dump) root o.address o.location (.entity o.entity) m)

/-- The entry of a map is unread on each way to it, in a document that is read. -/
theorem unread_isAt_iff (hread : (readDump graph (some root)).Succeeds) {front back : List (α × α)} {key child : α}
    (hname : name ∈ unreadKeys) (hkey : graph key = .scalar name)
    (hm : graph m = .map (front ++ (key, child) :: back)) {o : Occurrence α} (hat : o.isAt m front.length = true) :
    Unread graph (.entity .dump) root o ↔
      o.key = name ∧ Leads graph (.entity .dump) root o.address o.location (.entity o.entity) m := by
  obtain ⟨hmap, hnumber⟩ : o.map = m ∧ o.number = front.length := by simpa [Occurrence.isAt] using hat
  constructor
  · intro h
    obtain ⟨front', key', child', back', hshape, hkey', hlength⟩ := h.entry
    rw [hmap, hm] at hshape
    obtain ⟨_, hback⟩ := List.append_inj (Shape.map.inj hshape) (hnumber.symm.trans hlength.symm)
    obtain ⟨rfl, _⟩ := Prod.mk.inj (List.cons.inj hback).1
    exact ⟨Shape.scalar.inj (hkey'.symm.trans hkey), hmap ▸ h.leads⟩
  · intro h
    obtain ⟨hname', hleads⟩ := h
    obtain ⟨node, hroot, hconforms⟩ := succeeds_readDump_iff.mp hread
    obtain rfl := Option.some.inj hroot
    -- A map that conforms to an entity has only keys of the entity.
    obtain ⟨entries, hshape, hentries, _⟩ := (conforms_map_iff rfl).mp (hleads.conforms hconforms)
    obtain rfl := Shape.map.inj (hm.symm.trans hshape)
    obtain ⟨asked, form, hasked, hknown⟩ := hentries.known (key, child) (by simp)
    obtain rfl := Shape.scalar.inj (hkey.symm.trans hasked)
    obtain rfl := Entity.eq_anything hname hknown
    exact ⟨hmap ▸ hleads, ⟨front, key, child, back, hmap ▸ hm, hname' ▸ hkey, hnumber.symm⟩, hname' ▸ hknown⟩

/-- The warnings of a document with an entry more are those of the document without it, and one for each way to the map
of the entry. -/
theorem warnsAlso_of_change {key child' : α} {front back : List (α × α)} {config : Config} {file file' : DumpFile}
    (hname : name ∈ unreadKeys) (hkey : graph key = .scalar name)
    (h : Change False graph graph' root m front [] [(key, child')] back) (hrecorded : config.recordIgnored = true)
    (hread : Reader.ofGraph config graph (some root) = .ok file)
    (hread' : Reader.ofGraph config graph' (some root) = .ok file') :
    WarnsAlso graph' root m front.length name file.warnings file'.warnings := by
  obtain ⟨remarks, hdump, hwarnings⟩ := warnings_of_ofGraph hrecorded hread
  obtain ⟨remarks', hdump', hwarnings'⟩ := warnings_of_ofGraph hrecorded hread'
  refine ⟨unreadIn graph' (.entity .dump) root, ?_, ?_, ?_⟩
  · rw [hwarnings', lines_of_readDump hdump']
    exact isLog_unreadIn root
  · rw [hwarnings, remarks_of_readDump hdump, ← remarksBut_unreadIn hname hkey h, remarksBut, List.map_map]
    apply List.map_congr_left
    intro o ho
    exact (mem_unreadIn_iff.mp (List.mem_of_mem_filter ho)).line_eq
  · intro o
    have hafter : graph' m = .map (front ++ (key, child') :: back) := by simpa using h.after
    have hiff := fun hat => unread_isAt_iff (o := o) ⟨_, _, hdump'⟩ hname (h.scalar_eq hkey) hafter hat
    rw [mem_unreadIn_iff]
    constructor
    · intro ho
      exact ⟨ho.2, (hiff ho.2).mp ho.1⟩
    · intro ho
      exact ⟨(hiff ho.1).mpr ho.2, ho.1⟩

end

/-- Let two documents have the same nodes but for a map, where the second has an entry under a key of whose value
nothing is asked.  If the first has the same entry with another value, both are read to the same, unless the map is also
read as settings.  If the first has no such entry, and the key is known and not looked at wherever the map is read, the
two are read to the same but for the warnings: the second has one more for each way to the map. -/
theorem unread_value_has_no_influence {α : Type} [DecidableEq α] (config : Config) {graph graph' : Graph α}
    {root m key child' : α} {name : String} {front back : List (α × α)} (hname : name ∈ unreadKeys)
    (hkey : graph key = .scalar name) (hafter : graph' m = .map (front ++ (key, child') :: back))
    (helsewhere : ∀ node, node ≠ m → graph' node = graph node) :
    (∀ child, graph m = .map (front ++ (key, child) :: back) → ¬ Visits graph root .settings m →
      Reader.ofGraph config graph' (some root) = Reader.ofGraph config graph (some root)) ∧
    (graph m = .map (front ++ back) →
      (∀ form, Visits graph root form m → form.kind? = some .map → form.under name = some .anything) →
      (Reader.ofGraph config graph' (some root)).map DumpFile.silent =
        (Reader.ofGraph config graph (some root)).map DumpFile.silent ∧
      ∀ file file', config.recordIgnored = true → Reader.ofGraph config graph (some root) = .ok file →
        Reader.ofGraph config graph' (some root) = .ok file' →
        WarnsAlso graph' root m front.length name file.warnings file'.warnings) := by
  constructor
  · intro child hbefore hsettings
    exact ofGraph_of_same config
      (change_of_replaced hname hkey hbefore hafter helsewhere hsettings).same_readDump
  · intro hbefore hunasked
    have hchange := change_of_inserted hkey hbefore hafter helsewhere hunasked
    refine ⟨silent_ofGraph_of_same config hchange.same_readDump, ?_⟩
    intro file file' hrecorded hread hread'
    exact warnsAlso_of_change hname hkey hchange hrecorded hread hread'

/-- A document that names one map as its settings and as the only queue of its device. -/
def aliased : Graph Nat
  | 0 => .map [(1, 2), (3, 4)]
  | 1 => .scalar "settings"
  | 2 => .map [(5, 6)]
  | 3 => .scalar "Device"
  | 4 => .map [(7, 8)]
  | 5 => .scalar "flags"
  | 6 => .scalar "x"
  | 7 => .scalar "Queues"
  | 8 => .sequence [2]
  | _ => .sequence []

/-- Where a queue is also read as settings, its flags matter: with a sequence in place of the text the document is
refused, and without them there is a setting less. -/
theorem flags_matter_in_settings :
    (∃ address location, Leads aliased (.entity .dump) 0 address location (.entity .queue) 2) ∧
      Entity.queue.format.lookup "flags" = some .anything ∧
      Reader.ofGraph {} aliased (some 0) = .ok
        { content := { settings := [("flags", "x")], devices := [{ queues := [{}] }] }
          warnings := ["Ignored Queue key 'flags' at Device[0].Queues[0].flags"] } ∧
      Reader.ofGraph {} (Function.update aliased 2 (.map [(5, 9)])) (some 0) =
        .error (.node (.wrongShape (.scalar .string) .sequence) "settings.flags") ∧
      Reader.ofGraph {} (Function.update aliased 2 (.map [])) (some 0) = .ok
        { content := { devices := [{ queues := [{}] }] } } := by
  refine ⟨?_, by decide, by decide +kernel, by decide +kernel, by decide +kernel⟩
  have hdevice : aliased 0 = .map ([(1, 2)] ++ (3, 4) :: []) := rfl
  have hqueues : aliased 4 = .map ([] ++ (7, 8) :: []) := rfl
  have hqueue : aliased 8 = .sequence ([] ++ 2 :: []) := rfl
  exact ⟨_, _, .entry hdevice rfl rfl (.entry hqueues rfl rfl (.element hqueue (.here _ _)))⟩

/-! ## Nodes that the format leads to -/

section

variable {α : Type} [DecidableEq α] (graph : Graph α)

/-- The form of the elements of a sequence. -/
def Form.item? : Form → Option Form
  | .sequence item => some item
  | _ => none

/-- A list of nodes with forms that has each node to which the format leads in a step. -/
def Closed (reached : List (Form × α)) : Prop :=
  ∀ pair ∈ reached,
    (∀ entry ∈ pairsOf graph pair.2, ∀ name ∈ keyOf graph entry.1, ∀ inner ∈ pair.1.under name,
      (inner, entry.2) ∈ reached) ∧
    ∀ item ∈ pair.1.item?, ∀ child ∈ itemsOf graph pair.2, (item, child) ∈ reached

instance (reached : List (Form × α)) : Decidable (Closed graph reached) :=
  inferInstanceAs (Decidable (∀ pair ∈ reached, _))

variable {graph}

omit [DecidableEq α] in
/-- No way leads out of a closed list. -/
theorem Closed.mem_of_leads {reached : List (Form × α)} (h : Closed graph reached) {form target : Form} {node place : α}
    {address : Address} {location : List Step} (hleads : Leads graph form node address location target place)
    (hnode : (form, node) ∈ reached) : (target, place) ∈ reached := by
  induction hleads with
  | here form node => exact hnode
  | @entry form inner target node key child place name front back address location shape isKey known rest ih =>
    apply ih
    refine (h _ hnode).1 (key, child) ?_ name (keyOf_eq_some_iff.mpr isKey) inner known
    rw [pairsOf, shape]
    simp
  | element shape rest ih =>
    apply ih
    refine (h _ hnode).2 _ rfl _ ?_
    rw [itemsOf, shape]
    simp

omit [DecidableEq α] in
theorem Closed.mem_of_visits {reached : List (Form × α)} (h : Closed graph reached) {root node : α} {form : Form}
    (hvisits : Visits graph root form node) (hroot : (Form.entity .dump, root) ∈ reached) : (form, node) ∈ reached := by
  obtain ⟨_, _, hway⟩ := hvisits
  exact h.mem_of_leads hway.leads hroot

end

/-- A document with a device that lists one queue twice, which has flags. -/
def flagged : Graph Nat
  | 0 => .map [(1, 2)]
  | 1 => .scalar "Device"
  | 2 => .map [(3, 4)]
  | 3 => .scalar "Queues"
  | 4 => .sequence [5, 5]
  | 5 => .map [(6, 7), (8, 9)]
  | 6 => .scalar "index"
  | 7 => .scalar "3"
  | 8 => .scalar "flags"
  | _ => .scalar "0"

/-- The same document without the flags. -/
def unflagged : Graph Nat := Function.update flagged 5 (.map [(6, 7)])

/-- The same document again, with itself under the flags. -/
def reflagged : Graph Nat := Function.update flagged 5 (.map [(6, 7), (8, 0)])

/-- Nodes of these documents with the forms that they have to be of. -/
def flaggedNodes : List (Form × Nat) := [(.entity .dump, 0), (.entity .device, 2), (.sequence (.entity .queue), 4),
  (.entity .queue, 5), (.uint .w32, 7), (.anything, 9)]

/-- What is under the flags makes no difference, and without them there are two warnings less. -/
theorem unread_value_has_no_influence_flagged :
    Reader.ofGraph {} reflagged (some 0) = Reader.ofGraph {} flagged (some 0) ∧
      ∃ file file', Reader.ofGraph {} unflagged (some 0) = .ok file ∧ Reader.ofGraph {} flagged (some 0) = .ok file' ∧
        file.warnings = [] ∧ file'.warnings.length = 2 ∧ file'.silent = file.silent ∧
        WarnsAlso flagged 0 5 1 "flags" file.warnings file'.warnings := by
  have hname : "flags" ∈ unreadKeys := by decide
  have hclosed : Closed flagged flaggedNodes ∧ Closed unflagged flaggedNodes := by decide
  constructor
  · have hafter : reflagged 5 = .map ([(6, 7)] ++ (8, 0) :: []) := rfl
    have helsewhere : ∀ node, node ≠ 5 → reflagged node = flagged node :=
      fun node hne => Function.update_of_ne hne _ flagged
    have hkey : flagged 8 = .scalar "flags" := rfl
    refine (unread_value_has_no_influence {} hname hkey hafter helsewhere).1 9 rfl ?_
    intro hvisits
    exact absurd (hclosed.1.mem_of_visits hvisits (by decide)) (by decide)
  · have hafter : flagged 5 = .map ([(6, 7)] ++ (8, 9) :: []) := rfl
    have helsewhere : ∀ node, node ≠ 5 → flagged node = unflagged node :=
      fun node hne => (Function.update_of_ne hne _ flagged).symm
    have hkey : unflagged 8 = .scalar "flags" := rfl
    have hread : Reader.ofGraph {} unflagged (some 0) = .ok
        { content := { devices := [{ queues := [{ index := 3 }, { index := 3 }] }] } } := by decide +kernel
    have hread' : Reader.ofGraph {} flagged (some 0) = .ok
        { content := { devices := [{ queues := [{ index := 3 }, { index := 3 }] }] }
          warnings := [
            "Ignored Queue key 'flags' at Device[0].Queues[0].flags",
            "Ignored Queue key 'flags' at Device[0].Queues[1].flags"] } := by decide +kernel
    have hunasked : ∀ form, Visits unflagged 0 form 5 → form.kind? = some .map →
        form.under "flags" = some .anything := by
      intro form hvisits _
      have hqueue : ∀ pair ∈ flaggedNodes, pair.2 = 5 → pair.1.under "flags" = some .anything := by decide
      exact hqueue (form, 5) (hclosed.2.mem_of_visits hvisits (by decide)) rfl
    have hresult := (unread_value_has_no_influence {} hname hkey hafter helsewhere).2 rfl hunasked
    exact ⟨_, _, hread, hread', rfl, rfl, rfl, hresult.2 _ _ rfl hread hread'⟩

end Postmortem
