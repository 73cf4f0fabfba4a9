import Postmortem.Proofs.RepeatedKeys
set_option autoImplicit false

/-!
# Deletion: what is given again need not be there

An entry whose value is stored counts only if it is the last of its key.  So entries may be deleted from the maps of a
document as long as each of them is followed by one of the same key that stays: the document is read to the same, but
for the warnings about what was inside the deleted values.  The main statement is `repeated_keys`, which also says which
occurrence counts.
-/

namespace Postmortem

open Postmortem.Node

/-! ## Lists without some members -/

section

variable {τ : Type} (drops : Nat → Bool)

/-- The members of a list that are not dropped by their numbers; the first has the number `first`. -/
def keptFrom : (first : Nat) → List τ → List τ
  | _, [] => []
  | first, x :: rest => if drops first then keptFrom (first + 1) rest else x :: keptFrom (first + 1) rest

variable {drops}

theorem keptFrom_cons_of_dropped {first : Nat} (h : drops first = true) (x : τ) (rest : List τ) :
    keptFrom drops first (x :: rest) = keptFrom drops (first + 1) rest := by
  rw [keptFrom, if_pos h]

theorem keptFrom_cons_of_kept {first : Nat} (h : drops first ≠ true) (x : τ) (rest : List τ) :
    keptFrom drops first (x :: rest) = x :: keptFrom drops (first + 1) rest := by
  rw [keptFrom, if_neg h]

theorem keptFrom_append (first : Nat) (front back : List τ) :
    keptFrom drops first (front ++ back) =
      keptFrom drops first front ++ keptFrom drops (first + front.length) back := by
  induction front generalizing first with
  | nil => rfl
  | cons x rest ih =>
    have hnumber : first + 1 + rest.length = first + (x :: rest).length := by
      rw [List.length_cons]
      omega
    rw [List.cons_append, keptFrom, keptFrom, ih, hnumber]
    split <;> rfl

theorem keptFrom_sublist (first : Nat) (list : List τ) : (keptFrom drops first list).Sublist list := by
  induction list generalizing first with
  | nil => exact .slnil
  | cons x rest ih =>
    rw [keptFrom]
    split
    · exact (ih (first + 1)).cons x
    · exact (ih (first + 1)).cons_cons x

/-- What is collected along the members that are kept. -/
theorem flatMap_withFronts_keptFrom {ρ : Type} (list : List τ) (f : List τ × τ → List ρ) :
    (withFronts [] (keptFrom drops 0 list)).flatMap f =
      (withFronts [] list).flatMap fun part =>
        if drops part.1.length then [] else f (keptFrom drops 0 part.1, part.2) := by
  induction list using List.reverseRecOn with
  | nil => rfl
  | append_singleton front x ih =>
    rw [keptFrom_append, withFronts_append, withFronts_append, List.flatMap_append, List.flatMap_append, ih,
      List.nil_append, List.nil_append, Nat.zero_add, keptFrom]
    congr 1
    split <;> rename_i h <;> simp [keptFrom, withFronts, h]

end

/-! ## Deleted entries -/

/-- A key whose value is stored. -/
def Stored (name : String) : Prop :=
  ∃ (e : Entity) (content : Content e) (slot : Slot e.Value content.Value), e.rule? name = some (.store content slot)

section

variable {α : Type} (graph : Graph α)

/-- Each entry that is dropped has a key whose value is stored, and so does one behind it that is kept. -/
def Superseded (drops : Nat → Bool) : (first : Nat) → List (α × α) → Prop
  | _, [] => True
  | first, entry :: rest =>
    (drops first = true → ∃ name, graph entry.1 = .scalar name ∧ Stored name ∧
      name ∈ keysOf graph (keptFrom drops (first + 1) rest)) ∧ Superseded drops (first + 1) rest

/-- A document without some entries of its maps. -/
def without (drops : α → Nat → Bool) : Graph α := fun node =>
  match graph node with
  | .map entries => .map (keptFrom (drops node) 0 entries)
  | shape => shape

variable {graph}

theorem stored_iff {e : Entity} {name : String} {rule : Rule e} (hrule : e.rule? name = some rule) :
    Stored name ↔ ∃ content slot, rule = .store content slot := by
  constructor
  · rintro ⟨e', content, slot, hstored⟩
    have hkey := (e'.isStore_iff _ (Entity.mem_schema_of_rule? hstored)).mp ⟨content, slot, rfl⟩
    exact (e.isStore_iff _ (Entity.mem_schema_of_rule? hrule)).mpr hkey
  · rintro ⟨content, slot, rfl⟩
    exact ⟨e, content, slot, hrule⟩

theorem not_stored_device : ¬ Stored "Device" := by
  rintro ⟨e, content, slot, hstored⟩
  have hkey : "Device" ∉ unstoredKeys :=
    (e.isStore_iff _ (Entity.mem_schema_of_rule? hstored)).mp ⟨content, slot, rfl⟩
  exact absurd hkey (by decide)

namespace Superseded

variable {drops : Nat → Bool}

theorem of_none (h : ∀ number, drops number = false) (first : Nat) (entries : List (α × α)) :
    Superseded graph drops first entries := by
  induction entries generalizing first with
  | nil => trivial
  | cons entry rest ih => exact ⟨fun hdrop => absurd hdrop (by simp [h]), ih (first + 1)⟩

/-- The values of a key that is not stored are all kept, also in front of other entries. -/
theorem valuesUnder_eq {first : Nat} {front back : List (α × α)} {name : String}
    (h : Superseded graph drops first (front ++ back)) (hname : ¬ Stored name) :
    valuesUnder graph name (keptFrom drops first front) = valuesUnder graph name front := by
  induction front generalizing first with
  | nil => rfl
  | cons entry rest ih =>
    obtain ⟨hentry, hrest⟩ := h
    by_cases hdrop : drops first = true
    · obtain ⟨own, hown, hstored, _⟩ := hentry hdrop
      have hne : own ≠ name := by
        rintro rfl
        exact hname hstored
      rw [keptFrom_cons_of_dropped hdrop, valuesUnder_cons_of_ne hown hne]
      exact ih hrest
    · rw [keptFrom_cons_of_kept hdrop, ← List.singleton_append, valuesUnder_append, ih hrest, ← valuesUnder_append,
        List.singleton_append]

/-- The last value of each key is kept. -/
theorem getLast?_valuesUnder_eq {first : Nat} {entries : List (α × α)} (h : Superseded graph drops first entries)
    (name : String) :
    (valuesUnder graph name (keptFrom drops first entries)).getLast? = (valuesUnder graph name entries).getLast? := by
  induction entries generalizing first with
  | nil => rfl
  | cons entry rest ih =>
    obtain ⟨hentry, hrest⟩ := h
    rw [← List.singleton_append, valuesUnder_append, List.getLast?_append, ← ih hrest, List.singleton_append]
    by_cases hdrop : drops first = true
    · obtain ⟨own, hown, _, hbehind⟩ := hentry hdrop
      rw [keptFrom_cons_of_dropped hdrop]
      by_cases hkey : own = name
      · -- The value is not the last one, as the key is given again.
        subst hkey
        rw [Option.or_of_isSome]
        rw [List.getLast?_isSome]
        exact fun hempty => valuesUnder_eq_nil_iff.mp hempty hbehind
      · rw [valuesUnder_cons_of_ne hown hkey, valuesUnder_nil, List.getLast?_nil, Option.or_none]
    · rw [keptFrom_cons_of_kept hdrop, ← List.singleton_append, valuesUnder_append, List.getLast?_append]

/-- Where no key is given again, nothing is dropped. -/
theorem keptFrom_eq {first : Nat} {entries : List (α × α)} (h : Superseded graph drops first entries)
    (hnodup : (keysOf graph entries).Nodup) : keptFrom drops first entries = entries := by
  induction entries generalizing first with
  | nil => rfl
  | cons entry rest ih =>
    obtain ⟨hentry, hrest⟩ := h
    have hsplit : keysOf graph (entry :: rest) = keysOf graph [entry] ++ keysOf graph rest := keysOf_append [entry] rest
    rw [hsplit, List.nodup_append] at hnodup
    have hkept := ih hrest hnodup.2.1
    by_cases hdrop : drops first = true
    · obtain ⟨own, hown, _, hbehind⟩ := hentry hdrop
      rw [hkept] at hbehind
      exact absurd rfl (hnodup.2.2 own (mem_keysOf.mpr ⟨entry, by simp, hown⟩) own hbehind)
    · rw [keptFrom_cons_of_kept hdrop, hkept]

end Superseded

/-! ## Values -/

/-- An outcome that is a value is the same value without what was deleted, whatever the remarks. -/
def Outcome.Keeps {τ : Type} (o o' : Outcome τ) : Prop :=
  ∀ value remarks, o = .ok (value, remarks) → ∃ remarks', o' = .ok (value, remarks')

namespace Outcome

variable {σ τ : Type} {o o' : Outcome τ}

theorem Keeps.of_eq (h : o' = o) : o.Keeps o' := fun _ remarks hread => ⟨remarks, h.trans hread⟩

theorem Keeps.map (f : τ → σ) (h : o.Keeps o') : (o.map f).Keeps (o'.map f) := by
  intro result remarks hread
  obtain ⟨value, hvalue, rfl⟩ := map_eq_ok_iff.mp hread
  obtain ⟨remarks', hvalue'⟩ := h value remarks hvalue
  exact ⟨remarks', map_eq_ok_iff.mpr ⟨value, hvalue', rfl⟩⟩

theorem Keeps.below (step : Step) (h : o.Keeps o') : (o.below step).Keeps (o'.below step) := by
  intro value remarks hread
  obtain ⟨own, hvalue, rfl⟩ := below_eq_ok_iff.mp hread
  obtain ⟨own', hvalue'⟩ := h value own hvalue
  exact ⟨_, below_eq_ok_iff.mpr ⟨own', hvalue', rfl⟩⟩

theorem Keeps.andThen {second second' : τ → Outcome σ} (h : o.Keeps o')
    (hsecond : ∀ value, (second value).Keeps (second' value)) : (o.andThen second).Keeps (o'.andThen second') := by
  intro result remarks hread
  obtain ⟨value, front, back, hvalue, hresult, rfl⟩ := andThen_eq_ok_iff.mp hread
  obtain ⟨front', hvalue'⟩ := h value front hvalue
  obtain ⟨back', hresult'⟩ := hsecond value result back hresult
  exact ⟨front' ++ back', andThen_eq_ok_iff.mpr ⟨value, front', back', hvalue', hresult', rfl⟩⟩

end Outcome

variable {drops : α → Nat → Bool}

theorem without_of_map {node : α} {entries : List (α × α)} (h : graph node = .map entries) :
    without graph drops node = .map (keptFrom (drops node) 0 entries) := by
  rw [without, h]

/-- Only maps change. -/
theorem without_of_not_map {node : α} (h : (graph node).kind ≠ .map) : without graph drops node = graph node := by
  unfold without
  split
  · rename_i hnode
    rw [hnode] at h
    exact absurd rfl h
  · rfl

theorem keyOf_without : keyOf (without graph drops) = keyOf graph := by
  funext node
  unfold keyOf without
  cases graph node <;> rfl

theorem pairsOf_without (node : α) :
    pairsOf (without graph drops) node = keptFrom (drops node) 0 (pairsOf graph node) := by
  unfold pairsOf without
  cases graph node <;> rfl

theorem itemsOf_without (node : α) : itemsOf (without graph drops) node = itemsOf graph node := by
  unfold itemsOf without
  cases graph node <;> rfl

theorem valuesUnder_without : valuesUnder (without graph drops) = valuesUnder graph := by
  funext name entries
  rw [valuesUnder, valuesUnder, keyOf_without]

/-- A node without some of its entries is read to the same text, or refused for the same reason. -/
theorem readWith_without {τ : Type} (target : Target) (read : String → Except Cause τ) (node : α) :
    (without graph drops node).readWith target read = (graph node).readWith target read := by
  unfold without
  cases graph node <;> rfl

theorem readText_without (node : α) : readText (without graph drops) node = readText graph node := by
  unfold readText without
  cases graph node <;> rfl

theorem keeps_readItems {τ : Type} {read read' : α → Outcome τ} (hread : ∀ child, (read child).Keeps (read' child))
    (index : Nat) (items : List α) : (readItems read index items).Keeps (readItems read' index items) := by
  induction items generalizing index with
  | nil => exact .of_eq rfl
  | cons node rest ih =>
    refine ((hread node).below (.index index)).andThen ?_
    exact fun value => (ih (index + 1)).map _

theorem keeps_readSequence {τ : Type} {read read' : α → Outcome τ} (hread : ∀ child, (read child).Keeps (read' child))
    (node : α) : (readSequence graph read node).Keeps (readSequence (without graph drops) read' node) := by
  unfold readSequence without
  cases graph node with
  | sequence items => exact keeps_readItems hread 0 items
  | scalar text => exact .of_eq rfl
  | map entries => exact .of_eq rfl

variable (hsuperseded : ∀ node, Superseded graph (drops node) 0 (pairsOf graph node))

include hsuperseded

/-- Nothing is deleted from settings, which have no key twice. -/
theorem keeps_readSettings (node : α) :
    (readSettings graph node).Keeps (readSettings (without graph drops) node) := by
  intro rows remarks hread
  have hconforms := (agrees_readSettings node).succeeds.mp ⟨rows, remarks, hread⟩
  obtain ⟨entries, hnode, hentries, _⟩ := (conforms_map_iff rfl).mp hconforms
  have hkept : keptFrom (drops node) 0 entries = entries := by
    have hown := hsuperseded node
    rw [pairsOf, hnode] at hown
    exact hown.keptFrom_eq (hentries.distinct rfl)
  have hentry : readSettingEntry (without graph drops) = readSettingEntry graph := by
    funext seen entry
    rw [readSettingEntry, readSettingEntry, readText_without, without]
    cases graph entry.1 <;> rfl
  refine ⟨remarks, ?_⟩
  rw [readSettings, hnode] at hread
  rw [readSettings, without, hnode]
  dsimp only at hread ⊢
  rw [readSettingEntries_eq_foldl] at hread ⊢
  rw [hkept, hentry]
  exact hread

section

variable {e : Entity} {lower lower' : LowerReader α e}

/-- The readers for lower entities keep what they read. -/
def LowerKeeps (lower lower' : LowerReader α e) : Prop :=
  ∀ item (h : item.rank < e.rank) start node, (lower item h start node).Keeps (lower' item h start node)

theorem keeps_readContent (hlower : LowerKeeps lower lower') (content : Content e) (node : α) :
    (readContent graph lower content node).Keeps (readContent (without graph drops) lower' content node) := by
  cases content with
  | text => exact .of_eq (readText_without node)
  | version => exact .of_eq (congrArg (Outcome.map Version.ofText) (readText_without node))
  | uint width => exact .of_eq (congrArg Outcome.ofExcept (readWith_without _ _ node))
  | flag => exact .of_eq (congrArg Outcome.ofExcept (readWith_without _ _ node))
  | handle => exact .of_eq (congrArg Outcome.ofExcept (readWith_without _ _ node))
  | texts => exact keeps_readSequence (fun child => .of_eq (readText_without child)) node
  | settings => exact keeps_readSettings hsuperseded node
  | one item hrank => exact hlower item hrank item.initial node
  | many item hrank => exact keeps_readSequence (hlower item hrank item.initial) node

theorem Rule.keeps_read (hlower : LowerKeeps lower lower') (key : String) (rule : Rule e) (x : rule.Part) (child : α) :
    (rule.read graph lower key child x).Keeps (rule.read (without graph drops) lower' key child x) := by
  cases rule with
  | store content slot => exact (keeps_readContent hsuperseded hlower content child).below (.key key)
  | merge part hrank slot => exact (hlower part hrank x child).below (.key key)
  | append item hrank slot =>
    exact (((hlower item hrank item.initial child).below (.index (List.length x))).below (.key key)).map _
  | ignore => exact .of_eq rfl

/-- Values that are all kept fill a slot with the same. -/
theorem Rule.fills_without (hlower : LowerKeeps lower lower') {key : String} {rule : Rule e} {x z : rule.Part}
    {values : List α} {remarks : List Remark} (h : rule.Fills graph lower key x values z remarks) :
    ∃ remarks', rule.Fills (without graph drops) lower' key x values z remarks' := by
  induction h with
  | done x => exact ⟨[], .done x⟩
  | value first _ ih =>
    obtain ⟨more, hrest⟩ := ih
    obtain ⟨own, hfirst⟩ := Rule.keeps_read hsuperseded hlower key rule _ _ _ _ first
    exact ⟨own ++ more, .value hfirst hrest⟩

/-- The values of a key that are kept fill its slot with the same as all of them. -/
theorem Rule.fills_kept (hlower : LowerKeeps lower lower') {key : String} {rule : Rule e}
    (hrule : e.rule? key = some rule) {drops' : Nat → Bool} {entries : List (α × α)}
    (hentries : Superseded graph drops' 0 entries) {x z : rule.Part} {remarks : List Remark}
    (h : rule.Fills graph lower key x (valuesUnder graph key entries) z remarks) :
    ∃ remarks', rule.Fills (without graph drops) lower' key x (valuesUnder graph key (keptFrom drops' 0 entries)) z
      remarks' := by
  by_cases hstored : Stored key
  · obtain ⟨content, slot, rfl⟩ := (stored_iff hrule).mp hstored
    obtain ⟨remarks', hall⟩ := Rule.fills_without hsuperseded hlower h
    obtain ⟨hreads, hempty, hlast⟩ := Rule.fills_store_iff.mp ⟨remarks', hall⟩
    rw [← hentries.getLast?_valuesUnder_eq key] at hlast
    apply Rule.fills_store_iff.mpr
    refine ⟨?_, ?_, hlast⟩
    · intro child hchild
      obtain ⟨entry, hentry, hkey, hvalue⟩ := mem_valuesUnder.mp hchild
      exact hreads child (mem_valuesUnder.mpr ⟨entry, (keptFrom_sublist 0 entries).subset hentry, hkey, hvalue⟩)
    · intro hnone
      apply hempty
      rw [← List.getLast?_eq_none_iff, ← hentries.getLast?_valuesUnder_eq key, List.getLast?_eq_none_iff]
      exact hnone
  · have hall : Superseded graph drops' 0 (entries ++ []) := by
      rw [List.append_nil]
      exact hentries
    rw [hall.valuesUnder_eq hstored]
    exact Rule.fills_without hsuperseded hlower h

theorem keeps_readMap (hlower : LowerKeeps lower lower') (start : e.Value) (node : α) :
    (readMap graph lower start node).Keeps (readMap (without graph drops) lower' start node) := by
  unfold readMap
  cases hnode : graph node with
  | map entries =>
    have hentries := hsuperseded node
    rw [pairsOf, hnode] at hentries
    rw [without_of_map hnode]
    refine Outcome.Keeps.andThen ?_ fun _ => .of_eq rfl
    intro value remarks hread
    obtain ⟨_, hfills, _⟩ := readEntries_fills_all hread
    apply exists_readEntries_of_fills
    · intro entry hentry
      obtain ⟨name, rule, hname, hrule⟩ := known_of_readEntries hread entry ((keptFrom_sublist 0 entries).subset hentry)
      refine ⟨name, rule, ?_, hrule⟩
      rw [without, hname]
    · intro key rule hrule
      rw [valuesUnder_without]
      exact Rule.fills_kept hsuperseded hlower hrule hentries (hfills key rule hrule)
  | scalar text =>
    rw [without_of_not_map (by simp [hnode, Shape.kind]), hnode]
    exact .of_eq rfl
  | sequence items =>
    rw [without_of_not_map (by simp [hnode, Shape.kind]), hnode]
    exact .of_eq rfl

end

/-- An entity that is read is read to the same. -/
theorem keeps_readEntity (e : Entity) (start : e.Value) (node : α) :
    (readEntity graph e start node).Keeps (readEntity (without graph drops) e start node) := by
  -- The graph may be cyclic, so the induction is on the rank of the entity.
  induction e using Entity.inductionOnRank generalizing node with
  | holder e ih =>
    rw [readEntity_eq, readEntity_eq]
    apply keeps_readMap hsuperseded
    intro item hitem start node
    exact ih item hitem start node

end

/-! ## Warnings -/

section

variable {α : Type} (graph : Graph α) (drops : α → Nat → Bool)

/-- Whether a way from a node goes through a deleted entry. -/
def crosses : α → Address → Bool
  | _, [] => false
  | node, .entry number :: rest =>
    drops node number || (pairsOf graph node)[number]?.any fun entry => crosses entry.2 rest
  | node, .element number :: rest => (itemsOf graph node)[number]?.any fun child => crosses child rest

/-- The unread entries below a node that are not inside a deleted value. -/
def outside (node : α) (log : List (Occurrence α)) : List (Occurrence α) :=
  log.filter fun o => !crosses graph drops node o.way

variable {graph drops}

theorem crosses_entry {node : α} {front back : List (α × α)} {entry : α × α}
    (hnode : pairsOf graph node = front ++ entry :: back) (hkept : drops node front.length ≠ true) (rest : Address) :
    crosses graph drops node (.entry front.length :: rest) = crosses graph drops entry.2 rest := by
  simp [crosses, hnode, hkept]

theorem crosses_element {node child : α} {front back : List α} (hnode : itemsOf graph node = front ++ child :: back)
    (rest : Address) : crosses graph drops node (.element front.length :: rest) = crosses graph drops child rest := by
  simp [crosses, hnode]

theorem outside_flatMap {ι : Type} (node : α) (list : List ι) (f : ι → List (Occurrence α)) :
    outside graph drops node (list.flatMap f) = list.flatMap fun x => outside graph drops node (f x) :=
  List.filter_flatMap

section

variable {e : Entity} {node : α} {front back : List (α × α)} {entry : α × α}
  {lower lower' : (inner : Form) → inner.height < (Form.entity e).height → α → List (Occurrence α)}

/-- Everything at a deleted entry is inside its value. -/
theorem outside_unreadAt_of_dropped (hdrop : drops node front.length = true) :
    outside graph drops node (unreadAt graph e lower node front entry) = [] := by
  apply List.filter_eq_nil_iff.mpr
  intro o ho
  obtain ⟨rest, hway⟩ := way_of_mem_unreadAt ho
  simp [hway, crosses, hdrop]

/-- The remarks at an entry that is kept are those that were made there outside of deleted values. -/
theorem remarks_unreadAt_without (hnode : pairsOf graph node = front ++ entry :: back)
    (hkept : drops node front.length ≠ true)
    (hsuperseded : Superseded graph (drops node) 0 (front ++ entry :: back))
    (hlower : ∀ inner h child, (lower' inner h child).map Occurrence.remark =
      (outside graph drops child (lower inner h child)).map Occurrence.remark) :
    (unreadAt (without graph drops) e lower' node (keptFrom (drops node) 0 front) entry).map Occurrence.remark =
      (outside graph drops node (unreadAt graph e lower node front entry)).map Occurrence.remark := by
  have hsteps : ∀ name, (Form.entity e).stepsTo name
      (valuesUnder (without graph drops) name (keptFrom (drops node) 0 front)).length =
        (Form.entity e).stepsTo name (valuesUnder graph name front).length := by
    intro name
    unfold Form.stepsTo
    split
    · rename_i hdevice
      -- Devices are numbered, and none is deleted.
      rw [valuesUnder_without, hsuperseded.valuesUnder_eq (hdevice.2 ▸ not_stored_device)]
    · rfl
  have hbelow : ∀ (o : Occurrence α) steps, (!crosses graph drops node (o.below (.entry front.length) steps).way) =
      !crosses graph drops entry.2 o.way := by
    intro o steps
    rw [Occurrence.way_below, crosses_entry hnode hkept]
  have hself : ∀ name, true = !crosses graph drops node (Occurrence.way ⟨e, name, node, front.length, [], []⟩) := by
    intro name
    rw [Occurrence.way, List.nil_append, crosses_entry hnode hkept]
    rfl
  rw [← List.filter_true (unreadAt (without graph drops) e lower' node (keptFrom (drops node) 0 front) entry)]
  refine remarks_unreadAt_congr keyOf_without hsteps hself hbelow (fun _ _ => rfl) ?_
  intro inner h
  rw [List.filter_true]
  exact hlower inner h entry.2

end

/-- The remarks about a document without some entries are those about the whole, but for those inside deleted values. -/
theorem remarks_unreadIn_without (hsuperseded : ∀ node, Superseded graph (drops node) 0 (pairsOf graph node))
    (form : Form) (node : α) :
    (unreadIn (without graph drops) form node).map Occurrence.remark =
      (outside graph drops node (unreadIn graph form node)).map Occurrence.remark := by
  -- A graph may be cyclic: what goes down is the form.
  induction form using Form.inductionOnHeight generalizing node with
  | entity e ih =>
    rw [unreadIn_entity, unreadIn_entity, pairsOf_without, flatMap_withFronts_keptFrom, outside_flatMap,
      List.map_flatMap, List.map_flatMap]
    apply List.flatMap_congr
    intro part hpart
    obtain ⟨back, hpairs⟩ := mem_withFronts_nil_iff.mp hpart
    by_cases hdrop : drops node part.1.length = true
    · rw [if_pos hdrop, outside_unreadAt_of_dropped hdrop]
    · rw [if_neg hdrop]
      exact remarks_unreadAt_without hpairs hdrop (hpairs ▸ hsuperseded node) ih
  | sequence item ih =>
    rw [unreadIn_sequence, unreadIn_sequence, itemsOf_without, outside_flatMap, List.map_flatMap, List.map_flatMap]
    apply List.flatMap_congr
    intro part hpart
    obtain ⟨back, hitems⟩ := mem_withFronts_nil_iff.mp hpart
    have hbelow : ∀ o : Occurrence α,
        (!crosses graph drops node (o.below (.element part.1.length) [.index part.1.length]).way) =
          !crosses graph drops part.2 o.way := by
      intro o
      rw [Occurrence.way_below, crosses_element hitems]
    rw [outside, remarks_filter_below hbelow, ← outside, ← ih, List.map_map, List.map_map]
    apply List.map_congr_left
    intro o _
    simp
  | leaf form hentity hsequence =>
    rw [unreadIn_eq_nil hentity hsequence, unreadIn_eq_nil hentity hsequence]
    rfl

end

/-! ## The results -/

section

variable {α : Type} {graph : Graph α} {drops : α → Nat → Bool} {config : Config} {root : α} {file : DumpFile}

/-- The lines about unread entries say what the remarks about them say. -/
theorem lines_outside (hsuperseded : ∀ node, Superseded graph (drops node) 0 (pairsOf graph node)) :
    (unreadIn (without graph drops) (.entity .dump) root).map Occurrence.line =
      (outside graph drops root (unreadIn graph (.entity .dump) root)).map Occurrence.line := by
  have hlines : ∀ (graph : Graph α) (log : List (Occurrence α)), (∀ o ∈ log, Unread graph (.entity .dump) root o) →
      log.map Occurrence.line = (log.map Occurrence.remark).map (·.line "") := by
    intro graph log hlog
    rw [List.map_map]
    exact List.map_congr_left fun o ho => (hlog o ho).line_eq.symm
  have houtside : ∀ o ∈ outside graph drops root (unreadIn graph (.entity .dump) root),
      Unread graph (.entity .dump) root o :=
    fun o ho => mem_unreadIn_iff.mp (List.mem_of_mem_filter ho)
  rw [hlines _ _ fun o ho => mem_unreadIn_iff.mp ho, remarks_unreadIn_without hsuperseded, ← hlines graph _ houtside]

/-- A document that is read is read to the same without entries that are given again, but for the warnings. -/
theorem ofGraph_without (hsuperseded : ∀ node, Superseded graph (drops node) 0 (pairsOf graph node))
    (hread : Reader.ofGraph config graph (some root) = .ok file) :
    ∃ file', Reader.ofGraph config (without graph drops) (some root) = .ok file' ∧ file'.silent = file.silent ∧
      file'.warnings = config.linesOf (outside graph drops root (unreadIn graph (.entity .dump) root)) := by
  obtain ⟨content, remarks, hdump, rfl⟩ := Reader.ofGraph_eq_ok_iff.mp hread
  obtain ⟨remarks', hdump'⟩ : ∃ remarks', readDump (without graph drops) (some root) = .ok (content, remarks') :=
    keeps_readEntity hsuperseded .dump Entity.dump.initial root content remarks hdump
  have hread' : Reader.ofGraph config (without graph drops) (some root) =
      .ok { content := content, warnings := if config.recordIgnored then remarks'.map (·.line "") else [] } :=
    Reader.ofGraph_eq_ok_iff.mpr ⟨content, remarks', hdump', rfl⟩
  refine ⟨_, hread', rfl, ?_⟩
  rw [warnings_eq_linesOf hread', Config.linesOf, Config.linesOf, lines_outside hsuperseded]

end

/-- A dump that is read follows the laws of its keys, in itself and in each map that the format leads to.  So entries
whose values are stored may be deleted wherever others of their keys are kept behind them: the dump is the same, and
only the warnings about unread entries inside the deleted values are gone. -/
theorem repeated_keys {α : Type} (config : Config) {graph : Graph α} {root : Option α} {file : DumpFile}
    (hread : Reader.ofGraph config graph root = .ok file) :
    ∃ node, root = some node ∧
      (∃ remarks, readEntity graph .dump Entity.dump.initial node = .ok (file.content, remarks)) ∧
      (∀ e map address location, Leads graph (.entity .dump) node address location (.entity e) map →
        ∃ value remarks, readEntity graph e e.initial map = .ok (value, remarks) ∧ e.FollowsLaws graph map value) ∧
      ∀ drops : α → Nat → Bool, (∀ map, Superseded graph (drops map) 0 (pairsOf graph map)) →
        ∃ file' log, Reader.ofGraph config (without graph drops) root = .ok file' ∧ file'.silent = file.silent ∧
          IsLog graph node log (log.map Occurrence.line) ∧ file.warnings = config.linesOf log ∧
          file'.warnings = config.linesOf (log.filter fun o => !crosses graph drops node o.way) := by
  obtain ⟨remarks, hdump⟩ := exists_readDump_of_ofGraph hread
  cases root with
  | none => exact absurd hdump (by simp [readDump])
  | some node =>
    refine ⟨node, rfl, ⟨remarks, hdump⟩, ?_, ?_⟩
    · intro e map address location hleads
      obtain ⟨value, own, hmap⟩ := exists_readEntity_of_leads ⟨_, _, hdump⟩ hleads
      exact ⟨value, own, hmap, followsLaws_of_readEntity hmap⟩
    · intro drops hsuperseded
      obtain ⟨file', hread', hsilent, hwarnings⟩ := ofGraph_without hsuperseded hread
      exact ⟨file', unreadIn graph (.entity .dump) node, hread', hsilent, isLog_unreadIn node,
        warnings_eq_linesOf hread, hwarnings⟩

/-- A document that gives its instance twice, the second time with two descriptions of the application, and the queues
of its device twice. -/
def regiven : Graph Nat
  | 0 => .map [(1, 2), (1, 3), (4, 5)]
  | 1 => .scalar "Instance"
  | 2 => .map [(6, 7)]
  | 3 => .map [(8, 9), (8, 10)]
  | 4 => .scalar "Device"
  | 5 => .map [(11, 12), (11, 13)]
  | 6 => .scalar "handle"
  | 7 => .scalar "0x7 [lost]"
  | 8 => .scalar "applicationInfo"
  | 9 => .map [(14, 15), (16, 17)]
  | 10 => .map [(16, 18)]
  | 11 => .scalar "Queues"
  | 12 => .sequence [19]
  | 13 => .sequence [19, 20]
  | 14 => .scalar "application"
  | 15 => .scalar "demo"
  | 16 => .scalar "engine"
  | 17 => .scalar "first"
  | 18 => .scalar "second"
  | 19 => .map [(21, 0)]
  | 20 => .map [(22, 23)]
  | 21 => .scalar "flags"
  | 22 => .scalar "index"
  | 23 => .scalar "3"
  | _ => .sequence []

/-- The first instance and the first queues. -/
def earlier (map number : Nat) : Bool := (map = 0 || map = 5) && number = 0

theorem superseded_earlier (map : Nat) : Superseded regiven (earlier map) 0 (pairsOf regiven map) := by
  have hinstance : Stored "Instance" := ⟨.dump, .one .apiInstance (by decide), _, rfl⟩
  have hqueues : Stored "Queues" := ⟨.device, .many .queue (by decide), _, rfl⟩
  by_cases hroot : map = 0
  · subst hroot
    exact ⟨fun _ => ⟨"Instance", rfl, hinstance, by decide⟩, by simp [earlier], by simp [earlier], trivial⟩
  by_cases hdevice : map = 5
  · subst hdevice
    exact ⟨fun _ => ⟨"Queues", rfl, hqueues, by decide⟩, by simp [earlier], trivial⟩
  · exact .of_none (fun number => by simp [earlier, hroot, hdevice]) 0 _

/-- The description of the application is that of the second instance, with the engine of the second description.
Without the first instance and the first queues the document is read to the same, with one warning less. -/
theorem repeated_keys_regiven :
    ∃ file file' log, Reader.ofGraph {} regiven (some 0) = .ok file ∧
      Reader.ofGraph {} (without regiven earlier) (some 0) = .ok file' ∧ file'.silent = file.silent ∧
      file.content.inst = { application := { name := "demo", engine := "second" } } ∧
      IsLog regiven 0 log file.warnings ∧ file.warnings = [
        "Ignored Queue key 'flags' at Device[0].Queues[0].flags",
        "Ignored Queue key 'flags' at Device[0].Queues[0].flags"] ∧
      file'.warnings = (log.filter fun o => !crosses regiven earlier 0 o.way).map Occurrence.line ∧
      file'.warnings = ["Ignored Queue key 'flags' at Device[0].Queues[0].flags"] := by
  have hread : Reader.ofGraph {} regiven (some 0) = .ok
      { content := {
          inst := { application := { name := "demo", engine := "second" } }
          devices := [{ queues := [{}, { index := 3 }] }] }
        warnings := [
          "Ignored Queue key 'flags' at Device[0].Queues[0].flags",
          "Ignored Queue key 'flags' at Device[0].Queues[0].flags"] } := by decide +kernel
  have hwarnings : (Reader.ofGraph {} (without regiven earlier) (some 0)).map DumpFile.warnings = .ok
      ["Ignored Queue key 'flags' at Device[0].Queues[0].flags"] := by decide +kernel
  obtain ⟨node, hroot, _, _, hdeletes⟩ := repeated_keys {} hread
  obtain rfl := Option.some.inj hroot
  obtain ⟨file', log, hread', hsilent, hlog, hlines, hlines'⟩ := hdeletes earlier superseded_earlier
  rw [hread'] at hwarnings
  exact ⟨_, file', log, hread, hread', hsilent, rfl, hlines ▸ hlog, rfl, hlines', Except.ok.inj hwarnings⟩

end Postmortem
