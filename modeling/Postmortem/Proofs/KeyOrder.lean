import Mathlib.Data.List.Perm.Basic
import Postmortem.Proofs.Remarks
import Postmortem.Proofs.SameKeys
set_option autoImplicit false

/-!
# Key order: maps are read alike in any order

The order of the keys of a map says nothing: if the entries of maps are put in other orders, in which those of equal
keys still follow each other as before, a document is read if it was, and to the same dump.  Each key fills a slot of
its own from the values under it, so two readings are compared slot by slot.  The main statement is
`ofGraph_reordered`; settings are compared key by key in it, and warnings without their order.
-/

namespace Postmortem

open Postmortem.Node

/-! ## Outcomes without the order of their remarks -/

namespace Outcome

variable {σ σ' τ τ' : Type}

/-- If two readings succeed, their values are related and their remarks the same but for the order. -/
def Tallies (R : σ → τ → Prop) (o : Outcome σ) (o' : Outcome τ) : Prop :=
  ∀ value remarks value' remarks', o = .ok (value, remarks) → o' = .ok (value', remarks') →
    R value value' ∧ remarks.Perm remarks'

theorem Tallies.of_eq {o o' : Outcome τ} (h : o = o') : Tallies Eq o o' := by
  intro value remarks value' remarks' hread hread'
  rw [h, hread'] at hread
  obtain ⟨rfl, rfl⟩ := Prod.mk.inj (Except.ok.inj hread)
  exact ⟨rfl, .refl _⟩

theorem Tallies.mono {R S : σ → τ → Prop} {o : Outcome σ} {o' : Outcome τ} (h : Tallies R o o')
    (himp : ∀ value value', R value value' → S value value') : Tallies S o o' := by
  intro value remarks value' remarks' hread hread'
  obtain ⟨hvalue, hremarks⟩ := h value remarks value' remarks' hread hread'
  exact ⟨himp _ _ hvalue, hremarks⟩

theorem Tallies.map {R : σ → τ → Prop} {S : σ' → τ' → Prop} {f : σ → σ'} {f' : τ → τ'} {o : Outcome σ} {o' : Outcome τ}
    (h : Tallies R o o') (himp : ∀ value value', R value value' → S (f value) (f' value')) :
    Tallies S (o.map f) (o'.map f') := by
  intro value remarks value' remarks' hread hread'
  obtain ⟨own, hown, rfl⟩ := map_eq_ok_iff.mp hread
  obtain ⟨own', hown', rfl⟩ := map_eq_ok_iff.mp hread'
  obtain ⟨hvalue, hremarks⟩ := h own remarks own' remarks' hown hown'
  exact ⟨himp _ _ hvalue, hremarks⟩

theorem Tallies.below {R : σ → τ → Prop} {o : Outcome σ} {o' : Outcome τ} (step : Step) (h : Tallies R o o') :
    Tallies R (o.below step) (o'.below step) := by
  intro value remarks value' remarks' hread hread'
  obtain ⟨own, hown, rfl⟩ := below_eq_ok_iff.mp hread
  obtain ⟨own', hown', rfl⟩ := below_eq_ok_iff.mp hread'
  obtain ⟨hvalue, hremarks⟩ := h value own value' own' hown hown'
  exact ⟨hvalue, hremarks.map _⟩

theorem Tallies.andThen {R : σ → τ → Prop} {S : σ' → τ' → Prop} {o : Outcome σ} {o' : Outcome τ}
    {next : σ → Outcome σ'} {next' : τ → Outcome τ'} (h : Tallies R o o')
    (hnext : ∀ value value', R value value' → Tallies S (next value) (next' value')) :
    Tallies S (o.andThen next) (o'.andThen next') := by
  intro result remarks result' remarks' hread hread'
  obtain ⟨value, front, back, hfirst, hsecond, rfl⟩ := andThen_eq_ok_iff.mp hread
  obtain ⟨value', front', back', hfirst', hsecond', rfl⟩ := andThen_eq_ok_iff.mp hread'
  obtain ⟨hvalue, hfront⟩ := h value front value' front' hfirst hfirst'
  obtain ⟨hresult, hback⟩ := hnext value value' hvalue result back result' back' hsecond hsecond'
  exact ⟨hresult, hfront.append hback⟩

end Outcome

open Outcome (Tallies)

/-! ## Parts of entities -/

/-- Values under a key that count as the same: settings do if each key has the same text. -/
def Content.Alike {owner : Entity} : (content : Content owner) → content.Value → content.Value → Prop
  | .settings, (rows : List (String × String)), (rows' : List (String × String)) =>
    ∀ name, rows.lookup name = rows'.lookup name
  | _, x, x' => x = x'

/-- Parts of an entity that count as the same. -/
def Rule.Alike {e : Entity} : (rule : Rule e) → rule.Part → rule.Part → Prop
  | .store content _, x, x' => content.Alike x x'
  | _, x, x' => x = x'

theorem Content.alike_refl {owner : Entity} (content : Content owner) (x : content.Value) : content.Alike x x := by
  cases content with
  | settings => exact fun name => rfl
  | text | version | uint | flag | handle | texts | one | many => exact rfl

theorem Rule.alike_refl {e : Entity} (rule : Rule e) (x : rule.Part) : rule.Alike x x := by
  cases rule with
  | store content slot => exact content.alike_refl x
  | merge | append | ignore => exact rfl

theorem Rule.Alike.eq {e : Entity} {rule : Rule e} {x x' : rule.Part} (h : rule.Alike x x')
    (hform : rule.form ≠ .settings) : x = x' := by
  cases rule with
  | store content slot =>
    cases content with
    | settings => exact absurd rfl hform
    | text | version | uint | flag | handle | texts | one | many => exact h
  | merge | append | ignore => exact h

/-! ## Entities -/

namespace Entity

/-- Entities whose parts count as the same. -/
def Alike (e : Entity) (v v' : e.Value) : Prop :=
  ∀ key rule, e.rule? key = some rule → rule.Alike (rule.slot.get v) (rule.slot.get v')

/-- Only a dump has settings, under one key. -/
theorem settings_eq (e : Entity) :
    ∀ row ∈ e.schema, row.2.form = .settings → e = .dump ∧ row.1 = "settings" := by
  cases e <;> decide

theorem Alike.eq {e : Entity} {v v' : e.Value} (h : e.Alike v v') (hne : e ≠ .dump) : v = v' := by
  apply ext_of_keys
  intro key rule hrule
  refine (h key rule hrule).eq ?_
  intro hform
  exact hne (e.settings_eq _ (mem_schema_of_rule? hrule) hform).1

/-- Dumps that are alike have the same settings, and the rest of them is equal. -/
theorem Alike.dump {d d' : Dump} (h : Entity.dump.Alike d d') :
    (∀ name, d.settings.lookup name = d'.settings.lookup name) ∧
      { d with settings := [] } = { d' with settings := [] } := by
  have hrule : Entity.dump.rule? "settings"
      = some (.store .settings ⟨Dump.settings, fun v (s : Dump) => { s with settings := v }⟩) := rfl
  refine ⟨h _ _ hrule, ?_⟩
  apply ext_of_keys (e := .dump)
  intro key rule hother
  by_cases hkey : "settings" = key
  · subst hkey
    obtain rfl := Option.some.inj (hrule.symm.trans hother)
    rfl
  · have hset (s : Dump) : rule.slot.get { s with settings := [] } = rule.slot.get s :=
      get_set_of_ne hrule hother hkey ([] : List (String × String)) s
    rw [hset d, hset d']
    refine (h key rule hother).eq ?_
    intro hform
    exact hkey (Entity.dump.settings_eq _ (mem_schema_of_rule? hother) hform).2.symm

theorem ne_dump_of_rank_lt {e item : Entity} (h : item.rank < e.rank) : item ≠ .dump := by
  rintro rfl
  cases e <;> exact absurd h (by decide)

end Entity

/-! ## Readers -/

section

variable {α β : Type} {graph : Graph α} {graph' : Graph β} {r : α → β → Prop}

theorem keyOf_of_readText {node : α} {text : String} {remarks : List Remark}
    (h : readText graph node = .ok (text, remarks)) : keyOf graph node = some text := by
  obtain ⟨hread, _⟩ := Outcome.ofExcept_eq_ok_iff.mp h
  rw [keyOf_eq_some_iff]
  generalize graph node = shape at hread
  cases shape with
  | scalar own => rw [Except.ok.inj hread]
  | sequence items => cases hread
  | map entries => cases hread

/-- The text of a setting is that of the first value under its key, if it was not given before. -/
theorem lookup_of_readSettingEntries {seen rows : List (String × String)} {entries : List (α × α)}
    {remarks : List Remark} (h : readSettingEntries graph seen entries = .ok (rows, remarks)) (name : String) :
    rows.lookup name = (seen.lookup name).or ((valuesUnder graph name entries).head?.bind (keyOf graph)) := by
  induction entries generalizing seen remarks with
  | nil =>
    obtain ⟨rfl, _⟩ := Outcome.pure_eq_ok_iff.mp h
    simp
  | cons entry rest ih =>
    obtain ⟨key, child⟩ := entry
    simp only [readSettingEntries] at h
    split at h
    · rename_i own hown
      split at h
      · exact absurd h (by simp)
      · rename_i hnew
        obtain ⟨text, _, _, hbelow, hrest, _⟩ := Outcome.andThen_eq_ok_iff.mp h
        obtain ⟨_, hread, _⟩ := Outcome.below_eq_ok_iff.mp hbelow
        have htext : keyOf graph child = some text := keyOf_of_readText hread
        rw [ih hrest, List.lookup_append]
        by_cases hkey : own = name
        · subst hkey
          have hnone : seen.lookup own = none := Option.not_isSome_iff_eq_none.mp hnew
          rw [valuesUnder_cons_self hown, hnone]
          simp [htext]
        · rw [valuesUnder_cons_of_ne hown hkey]
          have hother : [(own, text)].lookup name = none := by
            rw [List.lookup_cons, beq_false_of_ne (Ne.symm hkey)]
            rfl
          rw [hother, Option.or_none]
    · exact absurd h (by simp)

/-- The settings that are read have the first texts under their keys, and are read without a remark. -/
theorem lookup_of_readSettings {node : α} {rows : List (String × String)} {remarks : List Remark}
    (h : readSettings graph node = .ok (rows, remarks)) :
    remarks = [] ∧ ∃ entries, graph node = .map entries ∧
      ∀ name, rows.lookup name = (valuesUnder graph name entries).head?.bind (keyOf graph) := by
  constructor
  · rw [(logs_readSettings node).eq_map h, unreadIn_eq_nil (by simp) (by simp)]
    rfl
  · unfold readSettings at h
    split at h
    · rename_i entries hnode
      refine ⟨entries, hnode, ?_⟩
      intro name
      rw [lookup_of_readSettingEntries h name]
      rfl
    · exact absurd h (by simp)

theorem tallies_readItems {τ : Type} {read : α → Outcome τ} {read' : β → Outcome τ}
    (hread : ∀ child child', r child child' → Tallies Eq (read child) (read' child')) {items : List α}
    {items' : List β} (hpairs : List.Forall₂ r items items') (index : Nat) :
    Tallies Eq (readItems read index items) (readItems read' index items') := by
  induction hpairs generalizing index with
  | nil => exact .of_eq rfl
  | cons hfirst _ ih =>
    rw [readItems, readItems]
    refine ((hread _ _ hfirst).below (.index index)).andThen ?_
    rintro value _ rfl
    refine (ih (index + 1)).map ?_
    rintro values _ rfl
    rfl

variable (same : SameByKeys graph graph' r)

include same

theorem readText_eq_of_sameByKeys {node : α} {node' : β} (hnode : r node node') :
    readText graph node = readText graph' node' :=
  congrArg Outcome.ofExcept ((same node node' hnode).text_eq .string)

theorem readWith_eq_of_sameByKeys {τ : Type} (target : Target) (read : String → Except Cause τ) {node : α} {node' : β}
    (hnode : r node node') : (graph node).readWith target read = (graph' node').readWith target read := by
  rw [Shape.readWith, Shape.readWith, (same node node' hnode).text_eq]

theorem tallies_readSequence {τ : Type} {read : α → Outcome τ} {read' : β → Outcome τ}
    (hread : ∀ child child', r child child' → Tallies Eq (read child) (read' child')) {node : α} {node' : β}
    (hnode : r node node') : Tallies Eq (readSequence graph read node) (readSequence graph' read' node') := by
  have hmatch := same node node' hnode
  unfold readSequence
  generalize graph node = first at hmatch
  generalize graph' node' = last at hmatch
  cases hmatch with
  | scalar text => exact .of_eq rfl
  | sequence pairs => exact tallies_readItems hread pairs 0
  | map alike => exact .of_eq rfl

/-- Settings have the same text under each key. -/
theorem tallies_readSettings {node : α} {node' : β} (hnode : r node node') :
    Tallies (fun rows rows' => ∀ name, rows.lookup name = rows'.lookup name) (readSettings graph node)
      (readSettings graph' node') := by
  intro rows remarks rows' remarks' hread hread'
  obtain ⟨rfl, entries, hshape, hrows⟩ := lookup_of_readSettings hread
  obtain ⟨rfl, entries', hshape', hrows'⟩ := lookup_of_readSettings hread'
  obtain ⟨others, hothers, halike⟩ := same.map hnode hshape
  obtain rfl := Shape.map.inj (hshape'.symm.trans hothers)
  refine ⟨?_, .refl _⟩
  intro name
  rw [hrows, hrows']
  have hfirst := rel_head? (halike.values name)
  generalize (valuesUnder graph name entries).head? = first at hfirst
  generalize (valuesUnder graph' name entries').head? = first' at hfirst
  cases hfirst with
  | none => rfl
  | some hchild => exact same.keyOf_eq hchild

section

variable {e : Entity} {lower : LowerReader α e} {lower' : LowerReader β e}

/-- The readers for lower entities give the same, but for the order of remarks, at nodes that are related. -/
def LowerTallies (r : α → β → Prop) (lower : LowerReader α e) (lower' : LowerReader β e) : Prop :=
  ∀ item (h : item.rank < e.rank) start node node', r node node' →
    Tallies Eq (lower item h start node) (lower' item h start node')

theorem tallies_readContent (hlower : LowerTallies r lower lower') (content : Content e) {node : α} {node' : β}
    (hnode : r node node') :
    Tallies content.Alike (readContent graph lower content node) (readContent graph' lower' content node') := by
  cases content with
  | text => exact .of_eq (readText_eq_of_sameByKeys same hnode)
  | version => exact .of_eq (congrArg (Outcome.map Version.ofText) (readText_eq_of_sameByKeys same hnode))
  | uint width => exact .of_eq (congrArg Outcome.ofExcept (readWith_eq_of_sameByKeys same _ _ hnode))
  | flag => exact .of_eq (congrArg Outcome.ofExcept (readWith_eq_of_sameByKeys same _ _ hnode))
  | handle => exact .of_eq (congrArg Outcome.ofExcept (readWith_eq_of_sameByKeys same _ _ hnode))
  | texts =>
    refine tallies_readSequence same ?_ hnode
    exact fun child child' hchild => .of_eq (readText_eq_of_sameByKeys same hchild)
  | settings => exact tallies_readSettings same hnode
  | one item hrank => exact hlower item hrank item.initial node node' hnode
  | many item hrank => exact tallies_readSequence same (hlower item hrank item.initial) hnode

/-- A value under a key takes its part alike in both maps. -/
theorem Rule.tallies_read (hlower : LowerTallies r lower lower') (key : String) {rule : Rule e} {x x' : rule.Part}
    (hx : rule.Alike x x') {child : α} {child' : β} (hchild : r child child') :
    Tallies rule.Alike (rule.read graph lower key child x) (rule.read graph' lower' key child' x') := by
  cases rule with
  | store content slot => exact (tallies_readContent same hlower content hchild).below (.key key)
  | merge part hrank slot =>
    obtain rfl : x = x' := hx
    exact (hlower part hrank x child child' hchild).below (.key key)
  | append item hrank slot =>
    obtain rfl : x = x' := hx
    have hitem := hlower item hrank item.initial child child' hchild
    refine ((hitem.below (.index (List.length x))).below (.key key)).map ?_
    rintro value _ rfl
    rfl
  | ignore => exact Outcome.Tallies.of_eq rfl

/-- Values that are related in pairs fill a slot with the same. -/
theorem Rule.tallies_fills (hlower : LowerTallies r lower lower') {key : String} {rule : Rule e} {x z x' z' : rule.Part}
    {values : List α} {values' : List β} {remarks remarks' : List Remark} (hvalues : List.Forall₂ r values values')
    (hx : rule.Alike x x') (h : rule.Fills graph lower key x values z remarks)
    (h' : rule.Fills graph' lower' key x' values' z' remarks') : rule.Alike z z' ∧ remarks.Perm remarks' := by
  induction hvalues generalizing x x' remarks remarks' with
  | nil =>
    obtain ⟨rfl, rfl⟩ := Rule.fills_nil_iff.mp h
    obtain ⟨rfl, rfl⟩ := Rule.fills_nil_iff.mp h'
    exact ⟨hx, .refl _⟩
  | cons hfirst _ ih =>
    obtain ⟨y, own, more, hread, hrest, rfl⟩ := Rule.fills_cons_iff.mp h
    obtain ⟨y', own', more', hread', hrest', rfl⟩ := Rule.fills_cons_iff.mp h'
    obtain ⟨hy, hown⟩ := Rule.tallies_read same hlower key hx hfirst y own y' own' hread hread'
    obtain ⟨hz, hmore⟩ := ih hy hrest hrest'
    exact ⟨hz, hown.append hmore⟩

/-- Maps that are the same key by key are read alike. -/
theorem tallies_readMap (hlower : LowerTallies r lower lower') (start : e.Value) {node : α} {node' : β}
    (hnode : r node node') : Tallies e.Alike (readMap graph lower start node) (readMap graph' lower' start node') := by
  intro value remarks value' remarks' hread hread'
  unfold readMap at hread hread'
  split at hread
  · rename_i entries hshape
    obtain ⟨entries', hshape', halike⟩ := same.map hnode hshape
    rw [hshape'] at hread'
    obtain ⟨result, _, _, hentries, hchecked, rfl⟩ := Outcome.andThen_eq_ok_iff.mp hread
    obtain ⟨result', _, _, hentries', hchecked', rfl⟩ := Outcome.andThen_eq_ok_iff.mp hread'
    obtain ⟨_, rfl, rfl⟩ := checked_eq_ok_iff.mp hchecked
    obtain ⟨_, rfl, rfl⟩ := checked_eq_ok_iff.mp hchecked'
    obtain ⟨own, hfills, hremarks⟩ := readEntries_fills_all hentries
    obtain ⟨own', hfills', hremarks'⟩ := readEntries_fills_all hentries'
    have hkeys : ∀ key rule, e.rule? key = some rule →
        rule.Alike (rule.slot.get result) (rule.slot.get result') ∧ (own key).Perm (own' key) := by
      intro key rule hrule
      exact Rule.tallies_fills same hlower (halike.values key) (rule.alike_refl _) (hfills key rule hrule)
        (hfills' key rule hrule)
    refine ⟨fun key rule hrule => (hkeys key rule hrule).1, ?_⟩
    have hown : ((e.schema.map Prod.fst).flatMap own).Perm ((e.schema.map Prod.fst).flatMap own') := by
      apply List.Perm.flatMap_left
      intro key hkey
      obtain ⟨row, hrow, rfl⟩ := List.mem_map.mp hkey
      exact (hkeys row.1 row.2 (Entity.rule?_of_mem_schema hrow)).2
    rw [List.append_nil, List.append_nil]
    exact hremarks.trans (hown.trans hremarks'.symm)
  · exact absurd hread (by simp)

end

/-- Entities are read alike at nodes that are the same key by key. -/
theorem tallies_readEntity (e : Entity) (start : e.Value) {node : α} {node' : β} (hnode : r node node') :
    Tallies e.Alike (readEntity graph e start node) (readEntity graph' e start node') := by
  -- Both graphs may be cyclic, so the induction is on the rank of the entity.
  induction e using Entity.inductionOnRank generalizing node node' with
  | holder e ih =>
    rw [readEntity_eq, readEntity_eq]
    refine tallies_readMap same ?_ start hnode
    intro item hitem start node node' hnode
    refine (ih item hitem start hnode).mono ?_
    intro value value' halike
    exact halike.eq (Entity.ne_dump_of_rank_lt hitem)

end

/-! ## Dumps -/

/-- Two dumps that are the same but for the order of their settings and warnings. -/
structure DumpFile.SameButOrder (file file' : DumpFile) : Prop where
  settings : ∀ name, file.content.settings.lookup name = file'.content.settings.lookup name
  others : { file.content with settings := [] } = { file'.content with settings := [] }
  source : file.source = file'.source
  warnings : file.warnings.Perm file'.warnings

/-- Whatever the order of keys in each map of a document, it is read or it is not, and to the same dump: no entry of a
map counts for its place, as long as those of equal keys stay in their order. -/
theorem ofGraph_reordered (config : Config) {α β : Type} {graph : Graph α} {graph' : Graph β} {r : α → β → Prop}
    (horder : Reordered graph graph' r) {root : Option α} {root' : Option β} (hroot : Option.Rel r root root') :
    ((∃ file, Reader.ofGraph config graph root = .ok file) ↔ ∃ file, Reader.ofGraph config graph' root' = .ok file) ∧
      ∀ file file', Reader.ofGraph config graph root = .ok file → Reader.ofGraph config graph' root' = .ok file' →
        file.SameButOrder file' := by
  have hsame := horder.sameByKeys
  constructor
  · rw [Reader.exists_ofGraph_eq_ok_iff, Reader.exists_ofGraph_eq_ok_iff, succeeds_readDump_iff, succeeds_readDump_iff]
    cases hroot with
    | none => simp
    | some hnode => simp [hsame.conforms_iff hnode]
  · intro file file' hfile hfile'
    obtain ⟨content, remarks, hread, rfl⟩ := Reader.ofGraph_eq_ok_iff.mp hfile
    obtain ⟨content', remarks', hread', rfl⟩ := Reader.ofGraph_eq_ok_iff.mp hfile'
    cases hroot with
    | none => exact absurd hread (by simp [readDump])
    | some hnode =>
      obtain ⟨hcontent, hremarks⟩ :=
        tallies_readEntity hsame .dump Entity.dump.initial hnode content remarks content' remarks' hread hread'
      obtain ⟨hsettings, hothers⟩ := hcontent.dump
      refine ⟨hsettings, hothers, rfl, ?_⟩
      dsimp only
      split
      · exact hremarks.map _
      · exact .refl _

/-- A dump with a setting of each of two keys and two devices, of which the second gives its name again. -/
def listed : Graph Nat
  | 0 => .map [(1, 0), (2, 3), (4, 5), (4, 6)]
  | 1 => .scalar "SystemInfo"
  | 2 => .scalar "settings"
  | 3 => .map [(7, 8), (9, 10)]
  | 4 => .scalar "Device"
  | 5 => .map [(11, 12), (13, 14)]
  | 6 => .map [(11, 8), (11, 10)]
  | 7 => .scalar "mode"
  | 8 => .scalar "fast"
  | 9 => .scalar "level"
  | 10 => .scalar "2"
  | 11 => .scalar "deviceName"
  | 12 => .scalar "first"
  | 13 => .scalar "Queues"
  | 14 => .sequence [15]
  | 15 => .map [(16, 0)]
  | 16 => .scalar "flags"
  | _ => .scalar ""

/-- The same dump with its devices in front, and with its settings and the keys of its first device the other way. -/
def shuffled : Graph Nat
  | 0 => .map [(4, 5), (2, 3), (4, 6), (1, 0)]
  | 3 => .map [(9, 10), (7, 8)]
  | 5 => .map [(13, 14), (11, 12)]
  | node => listed node

theorem permuted_shuffled (node : Nat) : (listed node).Permuted listed (shuffled node) := by
  unfold shuffled
  split
  · exact .of_keys (by decide) (by decide)
  · exact .of_keys (by decide) (by decide)
  · exact .of_keys (by decide) (by decide)
  · exact .same _

/-- Settings and warnings come in another order, and the devices are the same. -/
theorem ofGraph_reordered_shuffled :
    Reordered listed shuffled Eq ∧ Option.Rel Eq (some 0) (some 0) ∧
      ∃ file file', Reader.ofGraph {} listed (some 0) = .ok file ∧ Reader.ofGraph {} shuffled (some 0) = .ok file' ∧
        file.content.settings = [("mode", "fast"), ("level", "2")] ∧
        file'.content.settings = [("level", "2"), ("mode", "fast")] ∧
        file.warnings = ["Ignored top level key 'SystemInfo' at SystemInfo",
          "Ignored Queue key 'flags' at Device[0].Queues[0].flags"] ∧
        file'.warnings = ["Ignored Queue key 'flags' at Device[0].Queues[0].flags",
          "Ignored top level key 'SystemInfo' at SystemInfo"] ∧
        file.SameButOrder file' := by
  have horder : Reordered listed shuffled Eq := reordered_of_permuted permuted_shuffled
  have hroot : Option.Rel Eq (some 0) (some 0) := .some rfl
  have hread : Reader.ofGraph {} listed (some 0) = .ok {
      content := {
        settings := [("mode", "fast"), ("level", "2")]
        devices := [{ name := "first", queues := [{}] }, { name := "2" }] }
      warnings := ["Ignored top level key 'SystemInfo' at SystemInfo",
        "Ignored Queue key 'flags' at Device[0].Queues[0].flags"] } := by
    decide +kernel
  have hread' : Reader.ofGraph {} shuffled (some 0) = .ok {
      content := {
        settings := [("level", "2"), ("mode", "fast")]
        devices := [{ name := "first", queues := [{}] }, { name := "2" }] }
      warnings := ["Ignored Queue key 'flags' at Device[0].Queues[0].flags",
        "Ignored top level key 'SystemInfo' at SystemInfo"] } := by
    decide +kernel
  have hsame := (ofGraph_reordered {} horder hroot).2 _ _ hread hread'
  exact ⟨horder, hroot, _, _, hread, hread', rfl, rfl, rfl, rfl, hsame⟩

end Postmortem
