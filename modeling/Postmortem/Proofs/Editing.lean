import Postmortem.Proofs.Precedence
set_option autoImplicit false

/-!
# Editing: two documents that differ in one map

Two readings are compared along the way of the first: whatever node the reader comes to, it finds the same one in both
documents, but for one map that has other entries in one place.  If those entries are read to the same, so is the
document.  The main statement is `Change.same_readDump`.  What an observer is told is a parameter: if he is told the
remarks too, they have to be the same, and if not, they may differ.
-/

namespace Postmortem

open Postmortem.Node

/-! ## Outcomes that an observer takes to be the same -/

namespace Outcome

/-- Two outcomes are the same refusal or the same value, with the same remarks if those are told. -/
inductive Same (told : Prop) {τ : Type} : Outcome τ → Outcome τ → Prop
  | value (value : τ) {remarks remarks' : List Remark} (h : told → remarks = remarks') :
      Same told (.ok (value, remarks)) (.ok (value, remarks'))
  | refusal (refusal : Refusal) : Same told (.error refusal) (.error refusal)

variable {told : Prop} {σ τ ι : Type}

theorem Same.refl (o : Outcome τ) : Same told o o := by
  cases o with
  | error refusal => exact .refusal refusal
  | ok result => exact .value result.1 fun _ => rfl

theorem Same.of_eq {o o' : Outcome τ} (h : o = o') : Same told o o' := h ▸ .refl o

/-- If the remarks are told, outcomes that are the same are equal. -/
theorem Same.eq {o o' : Outcome τ} (h : Same True o o') : o = o' := by
  cases h with
  | value value h => rw [h trivial]
  | refusal refusal => rfl

theorem Same.map (f : σ → τ) {o o' : Outcome σ} (h : Same told o o') : Same told (o.map f) (o'.map f) := by
  cases h with
  | value value h => exact .value _ h
  | refusal refusal => exact .refusal _

theorem Same.below (step : Step) {o o' : Outcome τ} (h : Same told o o') : Same told (o.below step) (o'.below step) := by
  cases h with
  | value value h => exact .value _ fun ht => by rw [h ht]
  | refusal refusal => exact .refusal _

theorem Same.andThen {first first' : Outcome σ} {second second' : σ → Outcome τ} (hfirst : Same told first first')
    (hsecond : ∀ value remarks, first = .ok (value, remarks) → Same told (second value) (second' value)) :
    Same told (first.andThen second) (first'.andThen second') := by
  cases hfirst with
  | refusal refusal => exact .refusal _
  | @value value remarks remarks' hremarks =>
    have h := hsecond value remarks rfl
    simp only [Outcome.andThen]
    cases hs : second value with
    | error refusal =>
      rw [hs] at h
      generalize second' value = o at h
      cases h
      exact .refusal _
    | ok result =>
      rw [hs] at h
      generalize second' value = o at h
      cases h with
      | value result hmore => exact .value _ fun ht => by rw [hremarks ht, hmore ht]

/-- A run through a list is the same if its steps are, in the states that the first run comes to. -/
theorem same_foldl {step step' : σ → ι → Outcome σ} {state : σ} {list : List ι}
    (hstep : ∀ front x back next remarks, list = front ++ x :: back → foldl step state front = .ok (next, remarks) →
      Same told (step next x) (step' next x)) :
    Same told (foldl step state list) (foldl step' state list) := by
  induction list generalizing state with
  | nil => exact .refl _
  | cons x rest ih =>
    rw [foldl, foldl]
    refine (hstep [] x rest state [] rfl rfl).andThen ?_
    intro next own hx
    apply ih
    intro front y back last remarks hrest hfront
    refine hstep (x :: front) y back last (own ++ remarks) (by rw [hrest]; rfl) ?_
    exact andThen_eq_ok_iff.mpr ⟨next, own, remarks, hx, hfront, rfl⟩

end Outcome

/-! ## Visits -/

section

variable {α : Type} {graph graph' : Graph α} {root m : α}

/-- The reader comes to a node, which has to be of a form. -/
def Visits (graph : Graph α) (root : α) (form : Form) (node : α) : Prop :=
  ∃ address location, ClearWay graph readable (.entity .dump) root address location form node

theorem ClearWay.trans {limit : Option Nat} {form middle target : Form} {node between place : α}
    {address more : Address} {location further : List Step}
    (h : ClearWay graph limit form node address location middle between)
    (h' : ClearWay graph limit middle between more further target place) :
    ClearWay graph limit form node (address ++ more) (location ++ further) target place := by
  induction h with
  | here form node => exact h'
  | entry shape before isKey known new rest ih =>
    rw [List.append_assoc]
    exact .entry shape before isKey known new (ih h')
  | element shape before rest ih => exact .element shape before (ih h')

theorem visits_root : Visits graph root (.entity .dump) root := ⟨[], [], .here _ _⟩

theorem Visits.element {item : Form} {node child : α} {front back : List α} (h : Visits graph root (.sequence item) node)
    (shape : graph node = .sequence (front ++ child :: back))
    (before : ∀ other ∈ front, Conforms graph readable item other) : Visits graph root item child := by
  obtain ⟨_, _, hway⟩ := h
  exact ⟨_, _, hway.trans (.element shape before (.here item child))⟩

theorem Visits.entry {form inner : Form} {node key child : α} {name : String} {front back : List (α × α)}
    (h : Visits graph root form node) (shape : graph node = .map (front ++ (key, child) :: back))
    (before : EntriesConform graph readable form front) (isKey : graph key = .scalar name)
    (known : form.under name = some inner) (new : form = .settings → name ∉ keysOf graph front) :
    Visits graph root inner child := by
  obtain ⟨_, _, hway⟩ := h
  exact ⟨_, _, hway.trans (.entry shape before isKey known new (.here inner child))⟩

/-! ## Changes -/

/-- One graph is another one with other entries in one place of a map, and wherever the reader comes to the map, the
other entries are read to the same. -/
structure Change (told : Prop) (graph graph' : Graph α) (root m : α) (front own own' back : List (α × α)) : Prop where
  before : graph m = .map (front ++ own ++ back)
  after : graph' m = .map (front ++ own' ++ back)
  elsewhere : ∀ node, node ≠ m → graph' node = graph node
  notSettings : ¬ Visits graph root .settings m
  same : ∀ e (lower lower' : LowerReader α e) state, Visits graph root (.entity e) m →
    Outcome.Same told (Outcome.foldl (readEntry graph lower) state own) (Outcome.foldl (readEntry graph' lower') state own')

namespace Change

variable {told : Prop} {front own own' back : List (α × α)}

/-- A node is changed in its entries only. -/
theorem cases_of (h : Change told graph graph' root m front own own' back) (node : α) :
    graph' node = graph node ∨
      node = m ∧ graph node = .map (front ++ own ++ back) ∧ graph' node = .map (front ++ own' ++ back) := by
  by_cases heq : node = m
  · subst heq
    exact Or.inr ⟨rfl, h.before, h.after⟩
  · exact Or.inl (h.elsewhere node heq)

theorem keyOf_eq (h : Change told graph graph' root m front own own' back) : keyOf graph' = keyOf graph := by
  funext node
  rcases h.cases_of node with heq | ⟨_, hbefore, hafter⟩
  · rw [keyOf, keyOf, heq]
  · rw [keyOf, keyOf, hbefore, hafter]

theorem scalar_eq (h : Change told graph graph' root m front own own' back) {node : α} {text : String}
    (hnode : graph node = .scalar text) : graph' node = .scalar text := by
  rw [← keyOf_eq_some_iff, h.keyOf_eq, keyOf_eq_some_iff]
  exact hnode

theorem valuesUnder_eq (h : Change told graph graph' root m front own own' back) :
    valuesUnder graph' = valuesUnder graph := by
  funext name entries
  rw [valuesUnder, valuesUnder, h.keyOf_eq]

theorem readWith_eq (h : Change told graph graph' root m front own own' back) {τ : Type} (target : Target)
    (read : String → Except Cause τ) (node : α) : (graph' node).readWith target read = (graph node).readWith target read := by
  rcases h.cases_of node with heq | ⟨_, hbefore, hafter⟩
  · rw [heq]
  · rw [hbefore, hafter]
    rfl

theorem readText_eq (h : Change told graph graph' root m front own own' back) (node : α) :
    readText graph' node = readText graph node := by
  rcases h.cases_of node with heq | ⟨_, hbefore, hafter⟩
  · rw [readText, readText, heq]
  · rw [readText, readText, hbefore, hafter]
    rfl

/-! ## Readers -/

theorem same_readSequence (h : Change told graph graph' root m front own own' back) {τ : Type} {item : Form}
    {read read' : α → Outcome τ}
    (hconform : ∀ child, (read child).Succeeds → Conforms graph readable item child)
    (hread : ∀ child, Visits graph root item child → Outcome.Same told (read child) (read' child)) {node : α}
    (hvisits : Visits graph root (.sequence item) node) :
    Outcome.Same told (readSequence graph read node) (readSequence graph' read' node) := by
  rcases h.cases_of node with heq | ⟨_, hbefore, hafter⟩
  · rw [readSequence, readSequence, heq]
    cases hnode : graph node with
    | sequence items =>
      have hitems : ∀ (done rest : List α) (index : Nat), items = done ++ rest →
          (∀ other ∈ done, Conforms graph readable item other) →
          Outcome.Same told (readItems read index rest) (readItems read' index rest) := by
        intro done rest
        induction rest generalizing done with
        | nil => exact fun index _ _ => .refl _
        | cons child rest ih =>
          intro index hsplit hdone
          have hchild : Visits graph root item child := hvisits.element (hsplit ▸ hnode) hdone
          rw [readItems, readItems]
          refine ((hread child hchild).below (.index index)).andThen ?_
          intro value remarks hvalue
          have hconforms : Conforms graph readable item child :=
            hconform child (Outcome.succeeds_below.mp ⟨value, remarks, hvalue⟩)
          refine (ih (done ++ [child]) (index + 1) (by simp [hsplit]) ?_).map _
          rw [List.forall_mem_append]
          exact ⟨hdone, List.forall_mem_singleton.mpr hconforms⟩
      exact hitems [] items 0 rfl (by simp)
    | scalar text => exact .refl _
    | map entries => exact .refl _
  · rw [readSequence, readSequence, hbefore, hafter]
    exact .refl _

theorem same_readSettings (h : Change told graph graph' root m front own own' back) {node : α}
    (hvisits : Visits graph root .settings node) :
    Outcome.Same told (readSettings graph node) (readSettings graph' node) := by
  have hne : node ≠ m := fun heq => h.notSettings (heq ▸ hvisits)
  have hentry : readSettingEntry graph' = readSettingEntry graph := by
    funext seen entry
    rw [readSettingEntry, readSettingEntry, h.readText_eq]
    rcases h.cases_of entry.1 with heq | ⟨_, hbefore, hafter⟩
    · rw [heq]
    · rw [hbefore, hafter]
      rfl
  rw [readSettings, readSettings, h.elsewhere node hne]
  cases graph node with
  | map entries =>
    dsimp only
    rw [readSettingEntries_eq_foldl, readSettingEntries_eq_foldl, hentry]
    exact .refl _
  | scalar text => exact .refl _
  | sequence items => exact .refl _

section

variable {e : Entity} {lower lower' : LowerReader α e}

/-- The readers for lower entities read to the same what the reader comes to. -/
def LowerSame (told : Prop) (graph : Graph α) (root : α) (lower lower' : LowerReader α e) : Prop :=
  ∀ item (hrank : item.rank < e.rank) start node, item.Blank start → Visits graph root (.entity item) node →
    Outcome.Same told (lower item hrank start node) (lower' item hrank start node)

theorem same_readContent (h : Change told graph graph' root m front own own' back) (hagrees : LowerAgrees graph lower)
    (hlower : LowerSame told graph root lower lower') (content : Content e) {node : α}
    (hvisits : Visits graph root content.form node) :
    Outcome.Same told (readContent graph lower content node) (readContent graph' lower' content node) := by
  cases content with
  | text => exact .of_eq (h.readText_eq node).symm
  | version => exact .of_eq (congrArg (Outcome.map Version.ofText) (h.readText_eq node).symm)
  | uint width => exact .of_eq (congrArg Outcome.ofExcept (h.readWith_eq _ _ node).symm)
  | flag => exact .of_eq (congrArg Outcome.ofExcept (h.readWith_eq _ _ node).symm)
  | handle => exact .of_eq (congrArg Outcome.ofExcept (h.readWith_eq _ _ node).symm)
  | texts =>
    refine h.same_readSequence ?_ ?_ hvisits
    · exact fun child => (agrees_readText child).succeeds.mp
    · exact fun child _ => .of_eq (h.readText_eq child).symm
  | settings => exact h.same_readSettings hvisits
  | one item hrank => exact hlower item hrank item.initial node (Or.inr rfl) hvisits
  | many item hrank =>
    refine h.same_readSequence ?_ ?_ hvisits
    · exact fun child => (hagrees item hrank item.initial child (Or.inr rfl)).succeeds.mp
    · exact fun child => hlower item hrank item.initial child (Or.inr rfl)

theorem same_read (h : Change told graph graph' root m front own own' back) (hagrees : LowerAgrees graph lower)
    (hlower : LowerSame told graph root lower lower') {key : String} {rule : Rule e} (hrule : e.rule? key = some rule)
    (x : rule.Part) {child : α} (hvisits : Visits graph root rule.form child) :
    Outcome.Same told (rule.read graph lower key child x) (rule.read graph' lower' key child x) := by
  cases rule with
  | store content slot => exact (h.same_readContent hagrees hlower content hvisits).below (.key key)
  | merge part hrank slot =>
    have hpart : part = .applicationInfo := e.merged?_eq _ (Entity.mem_schema_of_rule? hrule) part rfl
    exact (hlower part hrank x child (Or.inl hpart) hvisits).below (.key key)
  | append item hrank slot =>
    have hitem := hlower item hrank item.initial child (Or.inr rfl) hvisits
    exact ((hitem.below (.index (List.length x))).below (.key key)).map _
  | ignore => exact .refl _

/-- An entry that both maps have is read to the same. -/
theorem same_readEntry (h : Change told graph graph' root m front own own' back) (hagrees : LowerAgrees graph lower)
    (hlower : LowerSame told graph root lower lower') {node : α} (hvisits : Visits graph root (.entity e) node)
    {before after : List (α × α)} {entry : α × α} (hnode : graph node = .map (before ++ entry :: after))
    (hbefore : EntriesConform graph readable (.entity e) before) (state : e.Value) :
    Outcome.Same told (readEntry graph lower state entry) (readEntry graph' lower' state entry) := by
  obtain ⟨key, child⟩ := entry
  rw [readEntry, readEntry]
  rcases h.cases_of key with heq | ⟨_, hmap, hmap'⟩
  · dsimp only
    rw [heq]
    cases hkey : graph key with
    | scalar name =>
      dsimp only
      cases hrule : e.rule? name with
      | none => exact .refl _
      | some rule =>
        have hknown : (Form.entity e).under name = some rule.form := by
          rw [Form.under, e.lookup_format, hrule]
          rfl
        have hchild := hvisits.entry hnode hbefore hkey hknown (fun hsettings => absurd hsettings (by simp))
        dsimp only
        rw [applyRule_eq, applyRule_eq]
        exact (h.same_read hagrees hlower hrule _ hchild).map _
    | sequence items => exact .refl _
    | map entries => exact .refl _
  · dsimp only
    rw [hmap, hmap']
    exact .refl _

/-- The entries that were read may stand in their map. -/
theorem entriesConform_of_foldl (hagrees : LowerAgrees graph lower) {start next : e.Value} (hstart : e.Blank start)
    {entries : List (α × α)} {remarks : List Remark}
    (hread : Outcome.foldl (readEntry graph lower) start entries = .ok (next, remarks)) :
    EntriesConform graph readable (.entity e) entries := by
  refine (succeeds_foldl_iff ?_ entries).mp ⟨next, remarks, hread⟩
  intro before next remarks entry hbefore
  rw [← readEntries_eq_foldl] at hbefore
  exact entryAgrees_readEntry hagrees hstart hbefore entry

/-- Entries that both maps have, behind others that were read, are read to the same. -/
theorem same_entries (h : Change told graph graph' root m front own own' back) (hagrees : LowerAgrees graph lower)
    (hlower : LowerSame told graph root lower lower') {node : α} (hvisits : Visits graph root (.entity e) node)
    {start state : e.Value} (hstart : e.Blank start) (done list rest : List (α × α)) {remarks : List Remark}
    (hnode : graph node = .map (done ++ list ++ rest))
    (hdone : Outcome.foldl (readEntry graph lower) start done = .ok (state, remarks)) :
    Outcome.Same told (Outcome.foldl (readEntry graph lower) state list)
      (Outcome.foldl (readEntry graph' lower') state list) := by
  apply Outcome.same_foldl
  intro before entry after next own hlist hbefore
  have hread : Outcome.foldl (readEntry graph lower) start (done ++ before) = .ok (next, remarks ++ own) := by
    rw [Outcome.foldl_append]
    exact Outcome.andThen_eq_ok_iff.mpr ⟨state, remarks, own, hdone, hbefore, rfl⟩
  have hsplit : done ++ list ++ rest = (done ++ before) ++ entry :: (after ++ rest) := by simp [hlist]
  exact h.same_readEntry hagrees hlower hvisits (hsplit ▸ hnode) (entriesConform_of_foldl hagrees hstart hread) next

theorem same_readMap (h : Change told graph graph' root m front own own' back) (hagrees : LowerAgrees graph lower)
    (hlower : LowerSame told graph root lower lower') {node : α} (hvisits : Visits graph root (.entity e) node)
    {start : e.Value} (hstart : e.Blank start) :
    Outcome.Same told (readMap graph lower start node) (readMap graph' lower' start node) := by
  rw [readMap, readMap]
  rcases h.cases_of node with heq | ⟨rfl, hbefore, hafter⟩
  · rw [heq]
    cases hnode : graph node with
    | map entries =>
      dsimp only
      rw [readEntries_eq_foldl, readEntries_eq_foldl]
      refine Outcome.Same.andThen ?_ fun _ _ _ => .refl _
      exact h.same_entries hagrees hlower hvisits hstart [] entries [] (by simpa using hnode) rfl
    | scalar text => exact .refl _
    | sequence items => exact .refl _
  · -- The entries in front, those in question, and those behind, one after the other.
    rw [hbefore, hafter]
    dsimp only
    rw [readEntries_eq_foldl, readEntries_eq_foldl]
    refine Outcome.Same.andThen ?_ fun _ _ _ => .refl _
    simp only [Outcome.foldl_append]
    refine Outcome.Same.andThen ?_ ?_
    · refine Outcome.Same.andThen ?_ fun state _ _ => h.same e lower lower' state hvisits
      exact h.same_entries hagrees hlower hvisits hstart [] front (own ++ back) (by simpa using hbefore) rfl
    · intro state remarks hread
      rw [← Outcome.foldl_append] at hread
      exact h.same_entries hagrees hlower hvisits hstart (front ++ own) back [] (by simpa using hbefore) hread

end

/-- An entity that the reader comes to is read to the same. -/
theorem same_readEntity (h : Change told graph graph' root m front own own' back) (e : Entity) (start : e.Value)
    (hstart : e.Blank start) (node : α) (hvisits : Visits graph root (.entity e) node) :
    Outcome.Same told (readEntity graph e start node) (readEntity graph' e start node) := by
  -- The graphs may be cyclic: the induction is on the rank of the entity.
  induction e using Entity.inductionOnRank generalizing node with
  | holder e ih =>
    rw [readEntity_eq, readEntity_eq]
    refine h.same_readMap ?_ ?_ hvisits hstart
    · intro item _ start node hblank
      exact agrees_readEntity item start hblank node
    · intro item hitem start node hblank hvisits
      exact ih item hitem start hblank node hvisits

theorem same_readDump (h : Change told graph graph' root m front own own' back) :
    Outcome.Same told (readDump graph (some root)) (readDump graph' (some root)) :=
  h.same_readEntity .dump Entity.dump.initial (Or.inr rfl) root visits_root

end Change

end

end Postmortem
