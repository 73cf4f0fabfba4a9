import Postmortem.Proofs.Agreement
set_option autoImplicit false

/-!
# Entities: the schema and the format

The tables of the schema tell the reader what to do with a value, those of the format what a value has to be.  Row by
row they say the same, so that an entity agrees with its form as soon as the entities of lower rank do.
-/

namespace Postmortem

open Postmortem.Node

/-! ## Rows -/

/-- What the value of a key has to be. -/
def Content.form {owner : Entity} : Content owner → Form
  | .text | .version => .text
  | .uint width => .uint width
  | .flag => .flag
  | .handle => .handle
  | .texts => .sequence .text
  | .settings => .settings
  | .one item _ => .entity item
  | .many item _ => .sequence (.entity item)

/-- What the value under a rule has to be. -/
def Rule.form {e : Entity} : Rule e → Form
  | .store content _ => content.form
  | .merge part _ _ => .entity part
  | .append item _ _ => .entity item
  | .ignore => .anything

/-- The steps to the value under a rule, when the part of the rule has been filled so far. -/
def Rule.steps {e : Entity} (key : String) : (rule : Rule e) → rule.Part → List Step
  | .append _ _ _, (x : List _) => [.key key, .index x.length]
  | _, _ => [.key key]

/-- Whether the values under a rule are added to a list. -/
def Rule.appends {e : Entity} : Rule e → Bool
  | .append .. => true
  | _ => false

/-- A part that is filled from a value that it has already. -/
def Rule.merged? {e : Entity} : Rule e → Option Entity
  | .merge part _ _ => some part
  | _ => none

namespace Entity

/-- The tables of the schema and those of the format agree row by row. -/
theorem format_eq (e : Entity) : e.format = e.schema.map fun row => (row.1, row.2.form) := by
  cases e <;> rfl

theorem lookup_format (e : Entity) (key : String) : e.format.lookup key = (e.rule? key).map Rule.form := by
  rw [format_eq, rule?]
  induction e.schema with
  | nil => rfl
  | cons row rest ih =>
    rw [List.map_cons, List.lookup_cons, List.lookup_cons, ih]
    split <;> rfl

/-- Only the devices of a dump are added to a list. -/
theorem appends_eq (e : Entity) :
    ∀ row ∈ e.schema, row.2.appends = decide (e = .dump ∧ row.1 = "Device") := by
  cases e <;> decide

/-- Only the description of the application is filled from what is there already. -/
theorem merged?_eq (e : Entity) : ∀ row ∈ e.schema, ∀ part ∈ row.2.merged?, part = .applicationInfo := by
  cases e <;> decide

/-- A value that an entity may be read from: the initial one, or any for what is merged. -/
def Blank (e : Entity) (start : e.Value) : Prop := e = .applicationInfo ∨ start = e.initial

end Entity

/-! ## Values -/

section

variable {α : Type} {graph : Graph α} {e : Entity} {lower : LowerReader α e}

/-- The readers for lower entities agree with the forms of these. -/
def LowerAgrees (graph : Graph α) (lower : LowerReader α e) : Prop :=
  ∀ item (h : item.rank < e.rank) start node, item.Blank start →
    Agrees graph (.entity item) node (lower item h start node)

theorem agrees_readContent (hlower : LowerAgrees graph lower) (content : Content e) (node : α) :
    Agrees graph content.form node (readContent graph lower content node) := by
  cases content with
  | text => exact agrees_readText node
  | version => exact (agrees_readText node).map Version.ofText
  | uint width => exact agrees_readUint width node
  | flag => exact agrees_readBool node
  | handle => exact agrees_readHandle node
  | texts => exact agrees_readSequence agrees_readText node
  | settings => exact agrees_readSettings node
  | one item h => exact hlower item h item.initial node (Or.inr rfl)
  | many item h => exact agrees_readSequence (fun child => hlower item h item.initial child (Or.inr rfl)) node

/-- A value under a key agrees with the form that its rule asks for. -/
theorem agreesBelow_read (hlower : LowerAgrees graph lower) {key : String} {rule : Rule e}
    (hrule : e.rule? key = some rule) (x : rule.Part) (child : α) :
    AgreesBelow graph rule.form (rule.steps key x) child (rule.read graph lower key child x) := by
  cases rule with
  | store content slot => exact (agrees_readContent hlower content child).atNode.below (.key key)
  | merge part h slot =>
    have hpart : part = .applicationInfo := e.merged?_eq _ (Entity.mem_schema_of_rule? hrule) part rfl
    exact (hlower part h x child (Or.inl hpart)).atNode.below (.key key)
  | append item h slot =>
    have hitem := (hlower item h item.initial child (Or.inr rfl)).atNode
    exact ((hitem.below (.index (List.length x))).below (.key key)).map _
  | ignore =>
    constructor
    · exact ⟨fun _ => .anything child, fun _ => ⟨_, _, rfl⟩⟩
    · intro refusal
      constructor
      · intro h
        cases h
      · rintro ⟨_, _, h, _⟩
        exact absurd h not_firstViolation_anything

/-! ## Slots that were filled -/

/-- Each value under a key that appends has added one entity. -/
theorem length_of_fills_append {key : String} {item : Entity} {h : item.rank < e.rank}
    {slot : Slot e.Value (List item.Value)} {x z : List item.Value} {values : List α} {remarks : List Remark}
    (hfills : (Rule.append item h slot).Fills graph lower key x values z remarks) :
    z.length = x.length + values.length := by
  obtain ⟨added, rfl, hadded⟩ := Rule.fills_append hfills
  rw [List.length_append, hadded.length_eq]

/-- The members of what a sequence is read to are what its elements are read to by themselves. -/
theorem forall₂_of_readSequence {τ : Type} {read : α → Outcome τ} {node : α} {values : List τ}
    {remarks : List Remark} (h : readSequence graph read node = .ok (values, remarks)) :
    List.Forall₂ (fun node value => ∃ own, read node = .ok (value, own)) (itemsOf graph node) values := by
  unfold readSequence at h
  unfold itemsOf
  cases hnode : graph node with
  | sequence items =>
    rw [hnode] at h
    exact forall₂_of_readItems h
  | scalar text =>
    rw [hnode] at h
    exact absurd h (by simp)
  | map entries =>
    rw [hnode] at h
    exact absurd h (by simp)

/-- The last sequence under a key counts, and as many entities are stored as it has elements. -/
theorem length_of_fills_many {key : String} {item : Entity} {h : item.rank < e.rank}
    {slot : Slot e.Value (List item.Value)} {x z : List item.Value} {values : List α} {remarks : List Remark}
    (hfills : (Rule.store (.many item h) slot).Fills graph lower key x values z remarks) :
    z.length = (values.getLast?.map fun node => (itemsOf graph node).length).getD x.length := by
  obtain ⟨_, hempty, hlast⟩ := Rule.fills_store_iff.mp ⟨remarks, hfills⟩
  cases hvalues : values.getLast? with
  | none =>
    rw [hempty (List.getLast?_eq_none_iff.mp hvalues)]
    rfl
  | some last =>
    obtain ⟨own, hread⟩ := hlast last hvalues
    exact (forall₂_of_readSequence hread).length_eq.symm

/-! ## Entries and wholes -/

/-- The path of a value names the number of the values before it where the format says so. -/
theorem steps_eq {start next : e.Value} (hstart : e.Blank start) {front : List (α × α)} {remarks : List Remark}
    (hfront : readEntries graph lower start front = .ok (next, remarks)) {key : String} {rule : Rule e}
    (hrule : e.rule? key = some rule) :
    rule.steps key (rule.slot.get next) = (Form.entity e).stepsTo key (valuesUnder graph key front).length := by
  obtain ⟨own, hfills⟩ := readEntries_fills hfront hrule
  have happends := e.appends_eq _ (Entity.mem_schema_of_rule? hrule)
  unfold Form.stepsTo
  cases rule with
  | append item h slot =>
    obtain ⟨rfl, rfl⟩ := of_decide_eq_true happends.symm
    have hinitial : start = Entity.dump.initial := hstart.resolve_left (by simp)
    have hempty : slot.get Entity.dump.initial = [] := by
      cases hrule
      rfl
    have hlength := length_of_fills_append hfills
    rw [hinitial] at hlength
    change _ = List.length (slot.get Entity.dump.initial) + _ at hlength
    rw [hempty, List.length_nil, Nat.zero_add] at hlength
    rw [if_pos ⟨rfl, rfl⟩, ← hlength]
    rfl
  | store content slot =>
    have hnot := of_decide_eq_false happends.symm
    rw [if_neg (by simpa using hnot)]
    rfl
  | merge part h slot =>
    have hnot := of_decide_eq_false happends.symm
    rw [if_neg (by simpa using hnot)]
    rfl
  | ignore =>
    have hnot := of_decide_eq_false happends.symm
    rw [if_neg (by simpa using hnot)]
    rfl

theorem entryAgrees_readEntry (hlower : LowerAgrees graph lower) {start next : e.Value} (hstart : e.Blank start)
    {front : List (α × α)} {remarks : List Remark}
    (hfront : readEntries graph lower start front = .ok (next, remarks)) (entry : α × α) :
    EntryAgrees graph (.entity e) front entry (readEntry graph lower next entry) := by
  obtain ⟨key, child⟩ := entry
  unfold readEntry
  cases hkey : graph key with
  | scalar name =>
    dsimp only
    split
    · rename_i hrule
      have hunknown : e.format.lookup name = none := by
        rw [e.lookup_format, hrule]
        rfl
      refine entryAgrees_refuse ?_ fun _ _ _ => entryFault_iff_of_unknown hkey hunknown
      rintro ⟨_, _, hname, hknown, _⟩
      obtain rfl := Shape.scalar.inj (hkey.symm.trans hname)
      exact absurd (hunknown.symm.trans hknown) (by simp)
    · rename_i rule hrule
      have hknown : (Form.entity e).under name = some rule.form := by
        rw [Form.under, e.lookup_format, hrule]
        rfl
      rw [applyRule_eq]
      refine entryAgrees_of_known hkey hknown (fun h => nomatch h) ?_
      rw [← steps_eq hstart hfront hrule]
      exact (agreesBelow_read hlower hrule _ child).map _
  | sequence items => exact entryAgrees_odd hkey (by simp [Shape.kind])
  | map entries => exact entryAgrees_odd hkey (by simp [Shape.kind])

/-- A slot for a sequence that was empty at first has as many members as the last sequence under its key. -/
theorem length_of_listing {start value : e.Value} {entries : List (α × α)} {remarks : List Remark}
    (hentries : readEntries graph lower start entries = .ok (value, remarks)) {key : String} {item : Entity}
    {h : item.rank < e.rank} {slot : Slot e.Value (List item.Value)}
    (hrule : e.rule? key = some (.store (.many item h) slot)) (hstart : slot.get start = []) :
    (slot.get value).length = (lastItems graph key entries).length := by
  obtain ⟨own, hfills⟩ := readEntries_fills hentries hrule
  have hlength := length_of_fills_many hfills
  change List.length (slot.get value) = _ at hlength
  rw [hlength]
  unfold lastItems
  cases (valuesUnder graph key entries).getLast? with
  | none =>
    change List.length (slot.get start) = 0
    rw [hstart, List.length_nil]
  | some node => rfl

/-- The listings of a device have as many members as the last sequences under their keys. -/
theorem length_listings {lower : LowerReader α .device} {entries : List (α × α)} {d : Device}
    {remarks : List Remark}
    (hentries : readEntries graph lower Entity.device.initial entries = .ok (d, remarks)) :
    d.incompleteCommandBuffers.length = (lastItems graph "IncompleteCommandBuffers" entries).length ∧
      d.allCommandBuffers.length = (lastItems graph "AllCommandBuffers" entries).length := by
  have hincomplete : Entity.device.rule? "IncompleteCommandBuffers"
      = some (.store (.many .commandBuffer (by decide))
        ⟨Device.incompleteCommandBuffers, fun v (s : Device) => { s with incompleteCommandBuffers := v }⟩) := rfl
  have hall : Entity.device.rule? "AllCommandBuffers"
      = some (.store (.many .commandBuffer (by decide))
        ⟨Device.allCommandBuffers, fun v (s : Device) => { s with allCommandBuffers := v }⟩) := rfl
  exact ⟨length_of_listing hentries hincomplete rfl, length_of_listing hentries hall rfl⟩

/-- What is asked of a device as a whole agrees with its form. -/
theorem wholeAgrees_device {lower : LowerReader α .device} {entries : List (α × α)} {d : Device}
    {remarks : List Remark}
    (hentries : readEntries graph lower Entity.device.initial entries = .ok (d, remarks)) :
    WholeAgrees graph (.entity .device) entries (checked .device d) := by
  obtain ⟨hincomplete, hall⟩ := length_listings hentries
  have hempty : (d.incompleteCommandBuffers.isEmpty || d.allCommandBuffers.isEmpty) = true ↔
      Whole graph (.entity .device) entries := by
    simp only [Whole, Bool.or_eq_true, List.isEmpty_iff, ← List.length_eq_zero_iff, hincomplete, hall]
  by_cases h : (d.incompleteCommandBuffers.isEmpty || d.allCommandBuffers.isEmpty) = true
  · have hcheck : checked .device d = .pure d := by
      simp only [checked, Entity.check, Device.check, if_pos h]
    rw [hcheck]
    refine wholeAgrees_pure (hempty.mp h) ?_
    intro cause hfault
    cases hfault with
    | bothListings incomplete all => exact (hempty.mp h).elim incomplete all
  · have hcheck : checked .device d = .refuse (.bothListings (lastItems graph "IncompleteCommandBuffers" entries).length
        (lastItems graph "AllCommandBuffers" entries).length) := by
      simp only [checked, Entity.check, Device.check, if_neg h, hincomplete, hall]
    rw [hcheck]
    rw [hempty] at h
    refine wholeAgrees_refuse h ?_
    intro cause
    constructor
    · intro hfault
      cases hfault
      rfl
    · intro hcause
      rw [hcause]
      obtain ⟨incomplete, all⟩ := not_or.mp h
      exact .bothListings incomplete all

/-- What is asked of an entity as a whole agrees with its form. -/
theorem wholeAgrees_checked {start value : e.Value} (hstart : e.Blank start) {entries : List (α × α)}
    {remarks : List Remark} (hentries : readEntries graph lower start entries = .ok (value, remarks)) :
    WholeAgrees graph (.entity e) entries (checked e value) := by
  by_cases hdevice : e = .device
  · subst hdevice
    obtain h | rfl := hstart
    · exact absurd h (by simp)
    · exact wholeAgrees_device hentries
  · have hcheck : checked e value = .pure value := by
      cases e <;> first | rfl | contradiction
    have hwhole : Whole graph (.entity e) entries := by
      cases e <;> trivial
    rw [hcheck]
    refine wholeAgrees_pure hwhole ?_
    intro cause hfault
    cases hfault
    exact absurd rfl hdevice

end

/-! ## Entities -/

section

variable {α : Type} {graph : Graph α}

/-- The reader of an entity agrees with its form, at any node of any graph. -/
theorem agrees_readEntity (e : Entity) (start : e.Value) (hstart : e.Blank start) (node : α) :
    Agrees graph (.entity e) node (readEntity graph e start node) := by
  -- The graph may be cyclic, so the induction is on the rank of the entity and the node stays arbitrary.
  induction e using Entity.inductionOnRank generalizing node with
  | holder e ih =>
    have hlower : LowerAgrees graph (e := e) fun item _ start node => readEntity graph item start node := by
      intro item h start node hblank
      exact ih item h start hblank node
    rw [readEntity_eq]
    unfold readMap
    cases hnode : graph node with
    | map entries =>
      dsimp only
      rw [readEntries_eq_foldl]
      refine agrees_map rfl hnode ?_ ?_
      · intro front next remarks entry hfront
        rw [← readEntries_eq_foldl] at hfront
        exact entryAgrees_readEntry hlower hstart hfront entry
      · intro value remarks hvalue
        rw [← readEntries_eq_foldl] at hvalue
        exact wholeAgrees_checked hstart hvalue
    | scalar text => exact agrees_wrongShape (.entity e) rfl hnode (by simp [Shape.kind])
    | sequence items => exact agrees_wrongShape (.entity e) rfl hnode (by simp [Shape.kind])

/-- A dump is read from the root of a document if that conforms to the format. -/
theorem succeeds_readDump_iff {root : Option α} :
    (readDump graph root).Succeeds ↔ ∃ node, root = some node ∧ Conforms graph readable (.entity .dump) node := by
  cases root with
  | none => exact ⟨fun ⟨_, _, h⟩ => absurd h (by simp [readDump]), fun ⟨_, h, _⟩ => nomatch h⟩
  | some node =>
    have h : Agrees graph (.entity .dump) node (readEntity graph .dump Entity.dump.initial node) :=
      agrees_readEntity .dump Entity.dump.initial (Or.inr rfl) node
    exact h.succeeds.trans ⟨fun hnode => ⟨node, rfl, hnode⟩, fun ⟨_, heq, hnode⟩ => Option.some.inj heq ▸ hnode⟩

/-- A document is refused for the lack of a root, or for the first violation below the root. -/
theorem readDump_eq_error_iff {root : Option α} {refusal : Refusal} :
    readDump graph root = .error refusal ↔
      root = none ∧ refusal = ⟨.wrongShape (.entityMap .dump) .nothing, []⟩ ∨
      ∃ node address, root = some node ∧
        FirstViolation graph readable (.entity .dump) node refusal.cause address refusal.location := by
  cases root with
  | none => simp [readDump]
  | some node =>
    have h : Agrees graph (.entity .dump) node (readEntity graph .dump Entity.dump.initial node) :=
      agrees_readEntity .dump Entity.dump.initial (Or.inr rfl) node
    refine (h.refuses refusal).trans ?_
    simp

end

end Postmortem
