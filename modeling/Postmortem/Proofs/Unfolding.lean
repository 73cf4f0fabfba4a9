import Postmortem.Proofs.Acceptance
import Postmortem.Proofs.Alike
import Postmortem.Proofs.ListReading
set_option autoImplicit false

/-!
# Unfolding: a document is read like a finite tree

The nodes of a document may be shared, and a node may lead back to itself.  The reader goes as deep as the schema does,
which is eleven levels, and it looks at shapes only.  So documents that are alike on eleven levels are read alike, and
each document is read like the tree that it unfolds to.  The recursion is on the rank of entities, and it ends whatever
the graph is.
-/

namespace Postmortem

open Postmortem.Node

/-! ## Levels of the schema -/

/-- The number of levels that the map of an entity has, with itself as the first. -/
def Entity.levels : Entity → Nat
  | .semaphoreInfo | .command | .applicationInfo => 2
  | .apiInstance => 3
  | .submitInfo | .commandBuffer => 4
  | .submit => 6
  | .queue => 8
  | .device => 10
  | .dump => 11

/-- The number of levels of a value. -/
def Content.levels {owner : Entity} : Content owner → Nat
  | .text | .version | .uint _ | .flag | .handle => 1
  | .texts | .settings => 2
  | .one item _ => item.levels
  | .many item _ => item.levels + 1

/-- The number of levels that are looked at below a key. -/
def Rule.levels {e : Entity} : Rule e → Nat
  | .store content _ => content.levels
  | .merge part _ _ => part.levels
  | .append item _ _ => item.levels
  | .ignore => 0

/-- The value of a key has fewer levels than the entity. -/
theorem Entity.levels_lt (e : Entity) : ∀ row ∈ e.schema, row.2.levels < e.levels := by
  cases e <;> decide

theorem Entity.levels_lt_of_rule? {e : Entity} {key : String} {rule : Rule e} (h : e.rule? key = some rule) :
    rule.levels < e.levels :=
  e.levels_lt _ (mem_schema_of_rule? h)

/-- The keys of an entity are below its map. -/
theorem Entity.one_lt_levels (e : Entity) : 1 < e.levels := by
  cases e <;> decide

section

variable {α β : Type} {graph : Graph α} {graph' : Graph β}

/-! ## Scalars and lists -/

/-- Steps that do the same to every state lead to the same outcome. -/
theorem Outcome.foldl_congr {σ ι κ : Type} {step : σ → ι → Outcome σ} {step' : σ → κ → Outcome σ} {list : List ι}
    {list' : List κ} (h : List.Forall₂ (fun x x' => ∀ state, step state x = step' state x') list list')
    (state : σ) : Outcome.foldl step state list = Outcome.foldl step' state list' := by
  induction h generalizing state with
  | nil => rfl
  | cons hfirst _ ih =>
    rw [Outcome.foldl, Outcome.foldl, hfirst]
    congr 1
    funext next
    exact ih next

theorem readWith_congr {τ : Type} {target : Target} {read : String → Except Cause τ} {levels : Nat} {node : α}
    {node' : β} (h : Alike graph graph' (levels + 1) node node') :
    (graph node).readWith target read = (graph' node').readWith target read := by
  obtain ⟨shape, shape', hnode, hnode', hshapes⟩ := h.shapes
  rw [hnode, hnode']
  cases hshapes <;> rfl

theorem readText_congr {levels : Nat} {node : α} {node' : β} (h : Alike graph graph' (levels + 1) node node') :
    readText graph node = readText graph' node' := by
  obtain ⟨shape, shape', hnode, hnode', hshapes⟩ := h.shapes
  rw [readText, readText, hnode, hnode']
  cases hshapes <;> rfl

theorem readItems_congr {τ : Type} {read : α → Outcome τ} {read' : β → Outcome τ} {items : List α}
    {items' : List β} (h : List.Forall₂ (fun node node' => read node = read' node') items items') (index : Nat) :
    readItems read index items = readItems read' index items' := by
  induction h generalizing index with
  | nil => rfl
  | cons hfirst _ ih => rw [readItems, readItems, hfirst, ih]

theorem readSequence_congr {τ : Type} {read : α → Outcome τ} {read' : β → Outcome τ} {levels : Nat}
    (hread : ∀ child child', Alike graph graph' levels child child' → read child = read' child') {node : α}
    {node' : β} (h : Alike graph graph' (levels + 1) node node') :
    readSequence graph read node = readSequence graph' read' node' := by
  obtain ⟨shape, shape', hnode, hnode', hshapes⟩ := h.shapes
  rw [readSequence, readSequence, hnode, hnode']
  cases hshapes with
  | scalar text => rfl
  | sequence pairs => exact readItems_congr (pairs.imp hread) 0
  | map pairs => rfl

/-! ## Entries -/

theorem readSettingEntry_congr {levels : Nat} {seen : List (String × String)} {entry : α × α} {entry' : β × β}
    (hkey : Alike graph graph' (levels + 1) entry.1 entry'.1)
    (hvalue : Alike graph graph' (levels + 1) entry.2 entry'.2) :
    readSettingEntry graph seen entry = readSettingEntry graph' seen entry' := by
  obtain ⟨shape, shape', hnode, hnode', hshapes⟩ := hkey.shapes
  rw [readSettingEntry, readSettingEntry, readText_congr hvalue, hnode, hnode']
  cases hshapes <;> rfl

theorem readSettings_congr {levels : Nat} {node : α} {node' : β} (h : Alike graph graph' (levels + 2) node node') :
    readSettings graph node = readSettings graph' node' := by
  obtain ⟨shape, shape', hnode, hnode', hshapes⟩ := h.shapes
  rw [readSettings, readSettings, hnode, hnode']
  cases hshapes with
  | scalar text => rfl
  | sequence pairs => rfl
  | map pairs =>
    dsimp only
    rw [readSettingEntries_eq_foldl, readSettingEntries_eq_foldl]
    refine Outcome.foldl_congr ?_ _
    exact pairs.imp fun entry entry' hpair seen => readSettingEntry_congr hpair.1 hpair.2

/-! ## Entities -/

section

variable {e : Entity} {lower : LowerReader α e} {lower' : LowerReader β e}

/-- The readers for lower entities read alike what is alike on the levels of these. -/
def LowerAlike (graph : Graph α) (graph' : Graph β) (lower : LowerReader α e) (lower' : LowerReader β e) : Prop :=
  ∀ item (h : item.rank < e.rank) start node node', Alike graph graph' item.levels node node' →
    lower item h start node = lower' item h start node'

theorem readContent_congr (hlower : LowerAlike graph graph' lower lower') (content : Content e) {node : α}
    {node' : β} (h : Alike graph graph' content.levels node node') :
    readContent graph lower content node = readContent graph' lower' content node' := by
  cases content with
  | text => exact readText_congr h
  | version => exact congrArg (Outcome.map Version.ofText) (readText_congr h)
  | uint width => exact congrArg Outcome.ofExcept (readWith_congr h)
  | flag => exact congrArg Outcome.ofExcept (readWith_congr h)
  | handle => exact congrArg Outcome.ofExcept (readWith_congr h)
  | texts => exact readSequence_congr (fun _ _ => readText_congr) h
  | settings => exact readSettings_congr h
  | one item hrank => exact hlower item hrank item.initial node node' h
  | many item hrank => exact readSequence_congr (hlower item hrank item.initial) h

theorem applyRule_congr (hlower : LowerAlike graph graph' lower lower') {key : String} {child : α} {child' : β}
    {state : e.Value} {rule : Rule e} (h : Alike graph graph' rule.levels child child') :
    applyRule graph lower key child state rule = applyRule graph' lower' key child' state rule := by
  cases rule with
  | store content slot => rw [applyRule, applyRule, readContent_congr hlower content h]
  | merge part hrank slot => rw [applyRule, applyRule, hlower part hrank _ child child' h]
  | append item hrank slot => rw [applyRule, applyRule, hlower item hrank _ child child' h]
  | ignore => rfl

theorem readEntry_congr (hlower : LowerAlike graph graph' lower lower') {levels : Nat}
    (hlevels : e.levels = levels + 1) {state : e.Value} {entry : α × α} {entry' : β × β}
    (hkey : Alike graph graph' levels entry.1 entry'.1) (hvalue : Alike graph graph' levels entry.2 entry'.2) :
    readEntry graph lower state entry = readEntry graph' lower' state entry' := by
  have hone : 1 ≤ levels := by
    have := e.one_lt_levels
    omega
  obtain ⟨shape, shape', hnode, hnode', hshapes⟩ := (hkey.mono hone).shapes
  rw [readEntry, readEntry, hnode, hnode']
  cases hshapes with
  | scalar name =>
    dsimp only
    cases hrule : e.rule? name with
    | none => rfl
    | some rule =>
      have hlt := Entity.levels_lt_of_rule? hrule
      exact applyRule_congr hlower (hvalue.mono (by omega))
  | sequence pairs => rfl
  | map pairs => rfl

/-- An entity is read alike from nodes that are alike on its levels. -/
theorem readMap_congr (hlower : LowerAlike graph graph' lower lower') {start : e.Value} {node : α} {node' : β}
    (h : Alike graph graph' e.levels node node') :
    readMap graph lower start node = readMap graph' lower' start node' := by
  obtain ⟨levels, hlevels⟩ : ∃ levels, e.levels = levels + 1 := ⟨e.levels - 1, by have := e.one_lt_levels; omega⟩
  rw [hlevels] at h
  obtain ⟨shape, shape', hnode, hnode', hshapes⟩ := h.shapes
  rw [readMap, readMap, hnode, hnode']
  cases hshapes with
  | scalar text => rfl
  | sequence pairs => rfl
  | map pairs =>
    dsimp only
    rw [readEntries_eq_foldl, readEntries_eq_foldl]
    congr 1
    refine Outcome.foldl_congr ?_ start
    exact pairs.imp fun entry entry' hpair state => readEntry_congr hlower hlevels hpair.1 hpair.2

end

theorem readEntity_congr (e : Entity) (start : e.Value) {node : α} {node' : β}
    (h : Alike graph graph' e.levels node node') :
    readEntity graph e start node = readEntity graph' e start node' := by
  -- Nodes may lead back to themselves: it is the rank of the entity that goes down.
  induction e using Entity.inductionOnRank generalizing node node' with
  | holder e ih =>
    rw [readEntity_eq, readEntity_eq]
    refine readMap_congr ?_ h
    intro item hitem start node node' halike
    exact ih item hitem start halike

/-! ## Documents -/

/-- Documents that are alike on the levels of a dump are read alike. -/
theorem ofGraph_congr (config : Config) {root : α} {root' : β} (h : Alike graph graph' 11 root root') :
    Reader.ofGraph config graph (some root) = Reader.ofGraph config graph' (some root') := by
  have hread : readDump graph (some root) = readDump graph' (some root') :=
    readEntity_congr .dump Entity.dump.initial h
  rw [Reader.ofGraph, Reader.ofGraph, hread]

/-- Reading ends on every graph, in a dump or in the refusal of a node.  It depends on no node that is more than ten
steps below the root.  It ends as it does on each tree that the root unfolds to on eleven levels, in which a shared node
is copied for each way to it and anything deeper is what it may be; and there is such a tree for any choice of what
lies deeper. -/
theorem ofGraph_unfolds (config : Config) (graph : Graph α) (root : α) :
    ((∃ file, Reader.ofGraph config graph (some root) = .ok file) ∨
      ∃ cause path, Reader.ofGraph config graph (some root) = .error (.node cause path)) ∧
    (∀ other : Graph α, (∀ node, Within graph 10 root node → other node = graph node) →
      Reader.ofGraph config other (some root) = Reader.ofGraph config graph (some root)) ∧
    (∀ tree, Alike graph Tree.shape 11 root tree →
      Reader.ofGraph config Tree.shape (some tree) = Reader.ofGraph config graph (some root)) ∧
    ∀ deeper, Alike graph Tree.shape 11 root (unfold graph deeper 11 root) := by
  refine ⟨?_, ?_, ?_, ?_⟩
  · cases hread : Reader.ofGraph config graph (some root) with
    | ok file => exact Or.inl ⟨file, rfl⟩
    | error fault =>
      obtain ⟨refusal, _, rfl⟩ := Reader.ofGraph_eq_error_iff.mp hread
      exact Or.inr ⟨refusal.cause, _, rfl⟩
  · intro other hagree
    exact (ofGraph_congr config (alike_of_agree hagree)).symm
  · intro tree hunfolds
    exact (ofGraph_congr config hunfolds).symm
  · intro deeper
    exact alike_unfold deeper 11 root

end

/-- A document that names its one device twice, and in it the one queue twice, whose flags are the document. -/
def looped : Graph Nat
  | 0 => .map [(1, 2), (1, 2)]
  | 1 => .scalar "Device"
  | 2 => .map [(3, 4)]
  | 3 => .scalar "Queues"
  | 4 => .sequence [5, 5]
  | 5 => .map [(6, 7), (8, 0)]
  | 6 => .scalar "index"
  | 7 => .scalar "3"
  | 8 => .scalar "flags"
  | _ => .scalar ""

/-- The device and its queue are read for each time that they are named, and reported under the path of each. -/
theorem ofGraph_unfolds_looped :
    Reader.ofGraph {} looped (some 0) = .ok
        { content := { devices := List.replicate 2 { queues := List.replicate 2 { index := 3 } } }
          warnings := [
            "Ignored Queue key 'flags' at Device[0].Queues[0].flags",
            "Ignored Queue key 'flags' at Device[0].Queues[1].flags",
            "Ignored Queue key 'flags' at Device[1].Queues[0].flags",
            "Ignored Queue key 'flags' at Device[1].Queues[1].flags"] } ∧
      Reader.ofGraph {} Tree.shape (some (unfold looped (fun _ => .scalar "deeper") 11 0))
        = Reader.ofGraph {} looped (some 0) := by
  obtain ⟨_, _, hunfolds, halike⟩ := ofGraph_unfolds {} looped 0
  exact ⟨by decide +kernel, hunfolds _ (halike _)⟩

end Postmortem
