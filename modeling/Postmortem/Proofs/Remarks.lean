import Postmortem.Proofs.Fitting
import Postmortem.Proofs.Unread
set_option autoImplicit false

/-!
# Remarks: what a reader says about what it does not look at

A reader makes a remark for each value that it does not look at, and collects the remarks of the readers below it, also
of those whose values are replaced later.  The main statement is `remarks_of_readDump`: the remarks of a dump that was
read are those about its unread entries, in order.  This is shown reader by reader along the format, with `unreadIn` as
the list that each of them has to leave.
-/

namespace Postmortem

open Postmortem.Node

/-! ## Remarks about a node -/

/-- A remark as seen from some steps above. -/
def Remark.behind (steps : List Step) (r : Remark) : Remark := { r with location := steps ++ r.location }

/-- The remark about an unread entry. -/
def Occurrence.remark {α : Type} (o : Occurrence α) : Remark := ⟨o.entity, o.key, o.place⟩

@[simp] theorem Occurrence.remark_below {α : Type} (move : Move) (steps : List Step) (o : Occurrence α) :
    (o.below move steps).remark = o.remark.behind steps := by
  simp [remark, Remark.behind, below, place]

section

variable {α : Type} {graph graph' : Graph α}

/-- What is told about unread entries below a node is what is told about them from the node, if the same ones are told. -/
theorem remarks_filter_below {told told' : Occurrence α → Bool} {move : Move} {steps : List Step}
    (h : ∀ o : Occurrence α, told (o.below move steps) = told' o) (log : List (Occurrence α)) :
    ((log.map (·.below move steps)).filter told).map Occurrence.remark =
      ((log.filter told').map Occurrence.remark).map (Remark.behind steps) := by
  have htold : (told ∘ Occurrence.below move steps) = told' := funext h
  rw [List.filter_map, List.map_map, List.map_map, htold]
  apply List.map_congr_left
  intro o _
  simp

/-- The same is told about an entry in two maps if it is told of the entry itself in both or in neither, the same is told
about what is below it, and its steps are the same. -/
theorem remarks_unreadAt_congr {e : Entity} {node node' : α} {front front' : List (α × α)} {entry : α × α}
    {lower lower' : (inner : Form) → inner.height < (Form.entity e).height → α → List (Occurrence α)}
    {told told' below below' : Occurrence α → Bool} (hkeys : keyOf graph' = keyOf graph)
    (hsteps : ∀ name, (Form.entity e).stepsTo name (valuesUnder graph' name front').length =
      (Form.entity e).stepsTo name (valuesUnder graph name front).length)
    (hown : ∀ name, told' ⟨e, name, node', front'.length, [], []⟩ = told ⟨e, name, node, front.length, [], []⟩)
    (hbelow : ∀ (o : Occurrence α) steps, told (o.below (.entry front.length) steps) = below o)
    (hbelow' : ∀ (o : Occurrence α) steps, told' (o.below (.entry front'.length) steps) = below' o)
    (hlower : ∀ inner h, ((lower' inner h entry.2).filter below').map Occurrence.remark =
      ((lower inner h entry.2).filter below).map Occurrence.remark) :
    ((unreadAt graph' e lower' node' front' entry).filter told').map Occurrence.remark =
      ((unreadAt graph e lower node front entry).filter told).map Occurrence.remark := by
  unfold unreadAt
  rw [hkeys]
  cases keyOf graph entry.1 with
  | none => rfl
  | some name =>
    dsimp only
    split
    · rfl
    · rw [List.filter_singleton, List.filter_singleton, hown]
      cases told ⟨e, name, node, front.length, [], []⟩ <;> rfl
    · rw [remarks_filter_below fun o => hbelow o _, remarks_filter_below fun o => hbelow' o _, hlower, hsteps]

end

section

variable {α : Type} (graph : Graph α)

/-- If a node is read, as seen from some steps above, the remarks are those about its unread entries. -/
def Logs (form : Form) (steps : List Step) (node : α) {τ : Type} (o : Outcome τ) : Prop :=
  ∀ value remarks, o = .ok (value, remarks) →
    remarks = (unreadIn graph form node).map fun o => o.remark.behind steps

variable {graph} {σ τ : Type} {form : Form} {steps : List Step} {node : α} {o : Outcome τ}

theorem Logs.map (f : τ → σ) (h : Logs graph form steps node o) : Logs graph form steps node (o.map f) := by
  intro value remarks hread
  obtain ⟨own, hown, _⟩ := Outcome.map_eq_ok_iff.mp hread
  exact h own remarks hown

theorem Logs.below (step : Step) (h : Logs graph form steps node o) :
    Logs graph form (step :: steps) node (o.below step) := by
  intro value remarks hread
  obtain ⟨own, hown, rfl⟩ := Outcome.below_eq_ok_iff.mp hread
  rw [h value own hown, List.map_map]
  rfl

/-- The remarks of a node that was read, as seen from the node. -/
theorem Logs.eq_map {value : τ} {remarks : List Remark} (h : Logs graph form [] node o)
    (hread : o = .ok (value, remarks)) : remarks = (unreadIn graph form node).map Occurrence.remark :=
  h value remarks hread

/-- A reader that makes no remark is right about a form with nothing unread below it. -/
theorem logs_of_silent (hentity : ∀ e, form ≠ .entity e) (hsequence : ∀ item, form ≠ .sequence item)
    (hsilent : ∀ value remarks, o = .ok (value, remarks) → remarks = []) : Logs graph form [] node o := by
  intro value remarks hread
  rw [hsilent value remarks hread, unreadIn_eq_nil hentity hsequence]
  rfl

/-! ## Readers -/

theorem logs_ofExcept (hentity : ∀ e, form ≠ .entity e) (hsequence : ∀ item, form ≠ .sequence item)
    (result : Except Cause τ) : Logs graph form [] node (.ofExcept result) :=
  logs_of_silent hentity hsequence fun _ _ hread => (Outcome.ofExcept_eq_ok_iff.mp hread).2

theorem logs_readText (node : α) : Logs graph .text [] node (readText graph node) :=
  logs_ofExcept (by simp) (by simp) _

/-- Elements behind others leave the remarks about what is unread in them, under their numbers. -/
theorem remarks_of_readItems {item : Form} {read : α → Outcome τ}
    (hread : ∀ child, Logs graph item [] child (read child)) (front : List α) {items : List α} {values : List τ}
    {remarks : List Remark} (h : readItems read front.length items = .ok (values, remarks)) :
    remarks = (withFronts front items).flatMap fun part =>
      (unreadIn graph item part.2).map fun o => o.remark.behind [.index part.1.length] := by
  induction items generalizing front values remarks with
  | nil =>
    obtain ⟨_, rfl⟩ := Outcome.pure_eq_ok_iff.mp h
    rfl
  | cons node rest ih =>
    obtain ⟨value, own, more, hnode, hrest, rfl⟩ := Outcome.andThen_eq_ok_iff.mp h
    obtain ⟨others, hothers, _⟩ := Outcome.map_eq_ok_iff.mp hrest
    have hlength : (front ++ [node]).length = front.length + 1 := List.length_append
    rw [← hlength] at hothers
    rw [withFronts, List.flatMap_cons, ← ih (front ++ [node]) hothers,
      (hread node).below (.index front.length) value own hnode]

theorem logs_readSequence {item : Form} {read : α → Outcome τ}
    (hread : ∀ child, Logs graph item [] child (read child)) (node : α) :
    Logs graph (.sequence item) [] node (readSequence graph read node) := by
  intro values remarks h
  unfold readSequence at h
  split at h
  · rename_i items hnode
    rw [remarks_of_readItems hread [] h, unreadIn_sequence, itemsOf, hnode, List.map_flatMap]
    apply List.flatMap_congr
    intro part _
    rw [List.map_map]
    apply List.map_congr_left
    intro own _
    simp [Remark.behind]
  · exact absurd h (by simp)

/-- A run through a list leaves the remarks of its steps, if what a step leaves depends on the members up to its own. -/
theorem remarks_of_foldl {ι : Type} {step : σ → ι → Outcome σ} {start : σ} (log : List ι → ι → List Remark)
    (hstep : ∀ front next remarks x value own, Outcome.foldl step start front = .ok (next, remarks) →
      step next x = .ok (value, own) → own = log front x) {list : List ι} {result : σ} {remarks : List Remark}
    (h : Outcome.foldl step start list = .ok (result, remarks)) :
    remarks = (withFronts [] list).flatMap fun part => log part.1 part.2 := by
  induction list using List.reverseRecOn generalizing result remarks with
  | nil => exact (Outcome.pure_eq_ok_iff.mp h).2
  | append_singleton front x ih =>
    rw [Outcome.foldl_append] at h
    obtain ⟨next, own, more, hfront, hlast, rfl⟩ := Outcome.andThen_eq_ok_iff.mp h
    rw [Outcome.foldl] at hlast
    obtain ⟨value, last, rest, hx, hdone, rfl⟩ := Outcome.andThen_eq_ok_iff.mp hlast
    obtain ⟨_, rfl⟩ := Outcome.pure_eq_ok_iff.mp hdone
    rw [withFronts_append, List.flatMap_append, ← ih hfront, hstep front next own x value last hfront hx]
    simp [withFronts]

/-- No remark is made in settings. -/
theorem logs_readSettings (node : α) : Logs graph .settings [] node (readSettings graph node) := by
  refine logs_of_silent (by simp) (by simp) ?_
  intro rows remarks h
  unfold readSettings at h
  split at h
  · rw [readSettingEntries_eq_foldl] at h
    rw [remarks_of_foldl (fun _ _ => []) ?_ h, List.flatMap_eq_nil_iff.mpr fun _ _ => rfl]
    intro front seen own entry value last _ hentry
    unfold readSettingEntry at hentry
    split at hentry
    · split at hentry
      · exact absurd hentry (by simp)
      · obtain ⟨text, hbelow, _⟩ := Outcome.map_eq_ok_iff.mp hentry
        obtain ⟨_, htext, rfl⟩ := Outcome.below_eq_ok_iff.mp hbelow
        rw [(Outcome.ofExcept_eq_ok_iff.mp htext).2]
        rfl
    · exact absurd hentry (by simp)
  · exact absurd h (by simp)

section

variable {e : Entity} {lower : LowerReader α e}

/-- The readers for lower entities leave the remarks about what is unread. -/
def LowerLogs (graph : Graph α) (lower : LowerReader α e) : Prop :=
  ∀ item (h : item.rank < e.rank) start node, item.Blank start →
    Logs graph (.entity item) [] node (lower item h start node)

theorem logs_readContent (hlower : LowerLogs graph lower) (content : Content e) (node : α) :
    Logs graph content.form [] node (readContent graph lower content node) := by
  cases content with
  | text => exact logs_readText node
  | version => exact (logs_readText node).map Version.ofText
  | uint width => exact logs_ofExcept (by simp [Content.form]) (by simp [Content.form]) _
  | flag => exact logs_ofExcept (by simp [Content.form]) (by simp [Content.form]) _
  | handle => exact logs_ofExcept (by simp [Content.form]) (by simp [Content.form]) _
  | texts => exact logs_readSequence logs_readText node
  | settings => exact logs_readSettings node
  | one item h => exact hlower item h item.initial node (Or.inr rfl)
  | many item h => exact logs_readSequence (fun child => hlower item h item.initial child (Or.inr rfl)) node

/-- The value of a key that is looked at leaves the remarks about what is unread in it. -/
theorem Rule.logs_read (hlower : LowerLogs graph lower) {key : String} {rule : Rule e}
    (hrule : e.rule? key = some rule) (hasked : rule.form ≠ .anything) (x : rule.Part) (child : α) :
    Logs graph rule.form (rule.steps key x) child (rule.read graph lower key child x) := by
  cases rule with
  | store content slot => exact (logs_readContent hlower content child).below (.key key)
  | merge part h slot =>
    have hpart : part = .applicationInfo := e.merged?_eq _ (Entity.mem_schema_of_rule? hrule) part rfl
    exact (hlower part h x child (Or.inl hpart)).below (.key key)
  | append item h slot =>
    have hitem := hlower item h item.initial child (Or.inr rfl)
    exact ((hitem.below (.index (List.length x))).below (.key key)).map _
  | ignore => exact absurd rfl hasked

/-- Only what the value of a key is not asked for is not looked at. -/
theorem Rule.eq_ignore {rule : Rule e} (h : rule.form = .anything) : rule = .ignore := by
  cases rule with
  | store content slot => cases content <;> exact absurd h (by simp [Rule.form, Content.form])
  | merge part hrank slot => exact absurd h (by simp [Rule.form])
  | append item hrank slot => exact absurd h (by simp [Rule.form])
  | ignore => rfl

/-- An entry leaves the remarks about what is unread at it. -/
theorem remarks_of_readEntry (hlower : LowerLogs graph lower) {start next value : e.Value} (hstart : e.Blank start)
    {front : List (α × α)} {before remarks : List Remark}
    (hfront : readEntries graph lower start front = .ok (next, before)) {entry : α × α} (node : α)
    (h : readEntry graph lower next entry = .ok (value, remarks)) :
    remarks = (unreadAt graph e (fun inner _ child => unreadIn graph inner child) node front entry).map
      Occurrence.remark := by
  obtain ⟨key, child⟩ := entry
  unfold readEntry at h
  split at h
  · rename_i name hname
    split at h
    · exact absurd h (by simp)
    · rename_i rule hrule
      have hknown : (Form.entity e).under name = some rule.form := by
        rw [Form.under, e.lookup_format, hrule]
        rfl
      rw [applyRule_eq] at h
      obtain ⟨part, hread, _⟩ := Outcome.map_eq_ok_iff.mp h
      by_cases hasked : rule.form = .anything
      · obtain rfl := Rule.eq_ignore hasked
        obtain ⟨_, rfl⟩ := Prod.mk.inj (Except.ok.inj hread)
        rw [unreadAt_of_unasked hname hknown]
        rfl
      · rw [unreadAt_of_asked hname hknown hasked, Rule.logs_read hlower hrule hasked _ child part remarks hread,
          steps_eq hstart hfront hrule, List.map_map]
        apply List.map_congr_left
        intro own _
        simp
  · exact absurd h (by simp)

theorem logs_readMap (hlower : LowerLogs graph lower) {start : e.Value} (hstart : e.Blank start) (node : α) :
    Logs graph (.entity e) [] node (readMap graph lower start node) := by
  intro value remarks h
  unfold readMap at h
  split at h
  · rename_i entries hnode
    obtain ⟨result, own, more, hentries, hchecked, rfl⟩ := Outcome.andThen_eq_ok_iff.mp h
    obtain ⟨_, _, rfl⟩ := checked_eq_ok_iff.mp hchecked
    rw [readEntries_eq_foldl] at hentries
    rw [List.append_nil, unreadIn_entity, pairsOf, hnode]
    dsimp only
    rw [List.map_flatMap]
    refine remarks_of_foldl (fun front entry => (unreadAt graph e _ node front entry).map fun o => o.remark.behind [])
      ?_ hentries
    intro front next before entry value last hfront hentry
    rw [← readEntries_eq_foldl] at hfront
    exact remarks_of_readEntry hlower hstart hfront node hentry
  · exact absurd h (by simp)

end

/-- An entity that is read leaves the remarks about its unread entries. -/
theorem logs_readEntity (e : Entity) (start : e.Value) (hstart : e.Blank start) (node : α) :
    Logs graph (.entity e) [] node (readEntity graph e start node) := by
  -- What goes down is the rank of the entity: the graph may be cyclic.
  induction e using Entity.inductionOnRank generalizing node with
  | holder e ih =>
    rw [readEntity_eq]
    refine logs_readMap ?_ hstart node
    intro item hitem start node hblank
    exact ih item hitem start hblank node

theorem remarks_of_readDump {node : α} {content : Dump} {remarks : List Remark}
    (h : readDump graph (some node) = .ok (content, remarks)) :
    remarks = (unreadIn graph (.entity .dump) node).map Occurrence.remark :=
  (logs_readEntity .dump Entity.dump.initial (Or.inr rfl) node).eq_map h

end

end Postmortem
