import Mathlib.Data.List.Induction
import Postmortem.Proofs.ListReading
import Postmortem.Proofs.Slots
import Postmortem.Proofs.Violation
set_option autoImplicit false

/-!
# Agreement: the reader and the format

The reader accepts the nodes that conform to the format, and what it says about any other node is the first violation
of the format.  The main statement is `agrees_readEntity`; it is put together from one statement for each form, and the
recursion goes down the ranks of the entities and not into the graph, which may be cyclic.
-/

namespace Postmortem

open Postmortem.Node

variable {α : Type} {graph : Graph α}

/-- An outcome of reading a node agrees with a form. -/
structure Agrees (graph : Graph α) (form : Form) (node : α) {τ : Type} (o : Outcome τ) : Prop where
  succeeds : o.Succeeds ↔ Conforms graph readable form node
  refuses : ∀ refusal, o = .error refusal ↔
    ∃ address, FirstViolation graph readable form node refusal.cause address refusal.location

/-- An outcome of reading a node agrees with a form, as seen from some steps above. -/
structure AgreesBelow (graph : Graph α) (form : Form) (steps : List Step) (node : α) {τ : Type} (o : Outcome τ) :
    Prop where
  succeeds : o.Succeeds ↔ Conforms graph readable form node
  refuses : ∀ refusal, o = .error refusal ↔
    ∃ address location, FirstViolation graph readable form node refusal.cause address location ∧
      refusal.location = steps ++ location

section

variable {σ τ : Type} {form : Form} {steps : List Step} {node : α} {o : Outcome τ}

theorem Agrees.map (f : τ → σ) (h : Agrees graph form node o) : Agrees graph form node (o.map f) := by
  constructor
  · rw [Outcome.succeeds_map, h.succeeds]
  · intro refusal
    rw [Outcome.map_eq_error_iff, h.refuses]

theorem AgreesBelow.map (f : τ → σ) (h : AgreesBelow graph form steps node o) :
    AgreesBelow graph form steps node (o.map f) := by
  constructor
  · rw [Outcome.succeeds_map, h.succeeds]
  · intro refusal
    rw [Outcome.map_eq_error_iff, h.refuses]

theorem AgreesBelow.below (step : Step) (h : AgreesBelow graph form steps node o) :
    AgreesBelow graph form (step :: steps) node (o.below step) := by
  constructor
  · rw [Outcome.succeeds_below, h.succeeds]
  · rintro ⟨cause, location⟩
    simp only [Outcome.below_eq_error_iff, h.refuses]
    constructor
    · rintro ⟨_, ⟨address, more, hfault, rfl⟩, rfl⟩
      exact ⟨address, more, hfault, rfl⟩
    · rintro ⟨address, more, hfault, rfl⟩
      exact ⟨steps ++ more, ⟨address, more, hfault, rfl⟩, rfl⟩

theorem Agrees.atNode (h : Agrees graph form node o) : AgreesBelow graph form [] node o := by
  constructor
  · exact h.succeeds
  · intro refusal
    simp only [h.refuses, List.nil_append]
    constructor
    · rintro ⟨address, hfault⟩
      exact ⟨address, refusal.location, hfault, rfl⟩
    · rintro ⟨address, location, hfault, rfl⟩
      exact ⟨address, hfault⟩

end

/-- The refusal of a node of another kind agrees with its form. -/
theorem agrees_wrongShape {τ : Type} (form : Form) {kind : Kind} {node : α} {shape : Shape α}
    (hkind : form.kind? = some kind) (hnode : graph node = shape) (hother : shape.kind ≠ kind) :
    Agrees graph form node (.refuse (.wrongShape form.expected shape.kind) : Outcome τ) := by
  subst hnode
  constructor
  · constructor
    · rintro ⟨_, _, h⟩
      exact absurd h (by simp)
    · intro h
      exact absurd (kind_of_conforms hkind h) hother
  · rintro ⟨cause, location⟩
    simp only [firstViolation_iff_of_kind_ne hkind hother, Outcome.refuse_eq_error_iff, Refusal.mk.injEq]
    constructor
    · rintro ⟨rfl, rfl⟩
      exact ⟨[], rfl, rfl, rfl⟩
    · rintro ⟨_, rfl, _, rfl⟩
      exact ⟨rfl, rfl⟩

/-! ## Scalars -/

section

variable {τ : Type} {form : Form} {target : Target} {read : String → Except Cause τ}

/-- A scalar agrees with its form if its text does. -/
theorem agrees_scalar (hkind : form.kind? = some .scalar) (hexpected : form.expected = .scalar target)
    (hok : ∀ text, (∃ value, read text = .ok value) ↔ Writes readable form text)
    (herror : ∀ text cause, read text = .error cause ↔ Misreads readable form text cause) (node : α) :
    Agrees graph form node (.ofExcept ((graph node).readWith target read)) := by
  cases hnode : graph node with
  | scalar text =>
    constructor
    · simp only [conforms_scalar_iff hkind, hnode, Shape.scalar.injEq, exists_eq_left', ← hok]
      constructor
      · rintro ⟨value, remarks, h⟩
        exact ⟨value, (Outcome.ofExcept_eq_ok_iff.mp h).1⟩
      · rintro ⟨value, h⟩
        exact ⟨value, [], Outcome.ofExcept_eq_ok_iff.mpr ⟨h, rfl⟩⟩
    · rintro ⟨cause, location⟩
      simp only [firstViolation_scalar_iff hkind, Outcome.ofExcept_eq_error_iff, Refusal.mk.injEq, hnode]
      constructor
      · rintro ⟨_, hread, rfl, rfl⟩
        exact ⟨[], Or.inr ⟨text, rfl, (herror text cause).mp hread⟩, rfl, rfl⟩
      · rintro ⟨_, ⟨hother, _⟩ | ⟨_, htext, hmisreads⟩, _, rfl⟩
        · exact absurd rfl hother
        · obtain rfl := Shape.scalar.inj htext
          exact ⟨cause, (herror text cause).mpr hmisreads, rfl, rfl⟩
  | sequence items =>
    have h := agrees_wrongShape (τ := τ) form hkind hnode (by simp [Shape.kind])
    rw [hexpected] at h
    exact h
  | map entries =>
    have h := agrees_wrongShape (τ := τ) form hkind hnode (by simp [Shape.kind])
    rw [hexpected] at h
    exact h

end

theorem agrees_readText (node : α) : Agrees graph .text node (readText graph node) := by
  have hread : readText graph node = .ofExcept ((graph node).readWith .string Except.ok) := by
    unfold readText
    cases graph node <;> rfl
  rw [hread]
  refine agrees_scalar rfl rfl ?_ ?_ node
  · exact fun text => ⟨fun _ => .text text, fun _ => ⟨text, rfl⟩⟩
  · exact fun text cause => ⟨fun h => absurd h (by simp), fun h => nomatch h⟩

theorem agrees_readUint (width : Width) (node : α) :
    Agrees graph (.uint width) node (.ofExcept ((graph node).readWith (.uint width) (readUint width))) := by
  refine agrees_scalar rfl rfl ?_ ?_ node
  · intro text
    simp only [readUint_eq_ok_iff]
    constructor
    · rintro ⟨value, n, isNumeral, short, small, _⟩
      exact .uint isNumeral short small
    · intro h
      cases h with
      | uint isNumeral short small => exact ⟨_, _, isNumeral, short, small, rfl⟩
  · intro text cause
    rw [readUint_eq_error_iff]
    constructor
    · exact .uint
    · intro h
      cases h with
      | uint h => exact h

theorem agrees_readBool (node : α) :
    Agrees graph .flag node (.ofExcept ((graph node).readWith .bool readBool)) := by
  refine agrees_scalar rfl rfl ?_ ?_ node
  · intro text
    simp only [readBool_eq_ok_iff]
    constructor
    · rintro ⟨value, h⟩
      exact .flag h
    · intro h
      cases h with
      | flag isTruth => exact ⟨_, isTruth⟩
  · intro text cause
    rw [readBool_eq_error_iff]
    constructor
    · rintro ⟨rfl, h⟩
      exact .flag h
    · intro h
      cases h with
      | flag h => exact ⟨rfl, h⟩

theorem agrees_readHandle (node : α) :
    Agrees graph .handle node (.ofExcept ((graph node).readWith .string readHandle)) := by
  refine agrees_scalar rfl rfl ?_ ?_ node
  · intro token
    simp only [readHandle_eq_ok_iff]
    constructor
    · rintro ⟨value, h⟩
      exact .handle h
    · intro h
      cases h with
      | handle isHandle => exact ⟨_, isHandle⟩
  · intro token cause
    rw [readHandle_eq_error_iff]
    constructor
    · rintro ⟨rfl, h⟩
      exact .handle h
    · intro h
      cases h with
      | handle h => exact ⟨rfl, h⟩

/-! ## Sequences -/

/-- A sequence agrees with its form if its elements do. -/
theorem agrees_readSequence {τ : Type} {item : Form} {read : α → Outcome τ}
    (hread : ∀ child, Agrees graph item child (read child)) (node : α) :
    Agrees graph (.sequence item) node (readSequence graph read node) := by
  unfold readSequence
  cases hnode : graph node with
  | sequence items =>
    constructor
    · simp only [conforms_sequence_iff, succeeds_readItems, (hread _).succeeds, hnode, Shape.sequence.injEq,
        exists_eq_left']
    · rintro ⟨cause, location⟩
      simp only [firstViolation_sequence_iff, readItems_eq_error_iff, (hread _).succeeds, hnode,
        Outcome.below_eq_error_iff, (hread _).refuses, Nat.zero_add]
      constructor
      · rintro ⟨front, child, back, rfl, hfront, more, ⟨rest, hfault⟩, rfl⟩
        exact ⟨_, Or.inr ⟨front, child, back, rest, more, rfl, hfront, hfault, rfl, rfl⟩⟩
      · rintro ⟨_, ⟨hother, _⟩ | ⟨front, child, back, rest, more, hitems, hfront, hfault, rfl, rfl⟩⟩
        · exact absurd rfl hother
        · obtain rfl := Shape.sequence.inj hitems
          exact ⟨front, child, back, rfl, hfront, more, ⟨rest, hfault⟩, rfl⟩
  | scalar text => exact agrees_wrongShape (.sequence item) rfl hnode (by simp [Shape.kind])
  | map entries => exact agrees_wrongShape (.sequence item) rfl hnode (by simp [Shape.kind])

/-! ## Maps -/

section

variable {σ : Type} {form : Form} {step : σ → α × α → Outcome σ} {start : σ}

/-- The outcome of reading one entry of a map agrees with the form of the map. -/
structure EntryAgrees (graph : Graph α) (form : Form) (front : List (α × α)) (entry : α × α) (o : Outcome σ) :
    Prop where
  succeeds : o.Succeeds ↔ EntryConforms graph readable form front entry
  refuses : ∀ refusal, o = .error refusal ↔
    ∃ address, EntryFault graph readable form front entry refusal.cause address refusal.location

/-- A refusal agrees with the form of a map if it names the fault of the entry. -/
theorem entryAgrees_refuse {front : List (α × α)} {entry : α × α} {own : Cause}
    (hnot : ¬ EntryConforms graph readable form front entry)
    (hfault : ∀ cause address location, EntryFault graph readable form front entry cause address location ↔
      cause = own ∧ address = [] ∧ location = []) :
    EntryAgrees graph form front entry (.refuse own : Outcome σ) := by
  constructor
  · constructor
    · rintro ⟨_, _, h⟩
      exact absurd h (by simp)
    · intro h
      exact absurd h hnot
  · rintro ⟨cause, location⟩
    simp only [hfault, Outcome.refuse_eq_error_iff, Refusal.mk.injEq]
    constructor
    · rintro ⟨rfl, rfl⟩
      exact ⟨[], rfl, rfl, rfl⟩
    · rintro ⟨_, rfl, _, rfl⟩
      exact ⟨rfl, rfl⟩

/-- An entry whose key is no scalar is refused. -/
theorem entryAgrees_odd {front : List (α × α)} {key child : α} {shape : Shape α} (hkey : graph key = shape)
    (hother : shape.kind ≠ .scalar) :
    EntryAgrees graph form front (key, child) (.refuse (.wrongShape .scalarKey shape.kind) : Outcome σ) := by
  subst hkey
  refine entryAgrees_refuse ?_ fun _ _ _ => entryFault_iff_of_odd hother
  rintro ⟨name, _, hname, _⟩
  exact hother (by rw [hname]; rfl)

/-- An entry whose key is in order agrees with the form of the map if its value agrees with its own form. -/
theorem entryAgrees_of_known {front : List (α × α)} {key child : α} {name : String} {inner : Form} {o : Outcome σ}
    (hkey : graph key = .scalar name) (hknown : form.under name = some inner)
    (hnew : form = .settings → name ∉ keysOf graph front)
    (ho : AgreesBelow graph inner (form.stepsTo name (valuesUnder graph name front).length) child o) :
    EntryAgrees graph form front (key, child) o := by
  constructor
  · rw [ho.succeeds]
    constructor
    · intro h
      exact ⟨name, inner, hkey, hknown, hnew, h⟩
    · rintro ⟨_, _, hkey', hknown', _, h⟩
      obtain rfl := Shape.scalar.inj (hkey.symm.trans hkey')
      obtain rfl := Option.some.inj (hknown.symm.trans hknown')
      exact h
  · intro refusal
    simp only [ho.refuses, entryFault_iff_of_known hkey hknown hnew]
    constructor
    · rintro ⟨address, location, hfault, hlocation⟩
      exact ⟨_, address, location, hfault, rfl, hlocation⟩
    · rintro ⟨_, address, location, hfault, rfl, hlocation⟩
      exact ⟨address, location, hfault, hlocation⟩

/-- Entries are read if they may stand in the map. -/
theorem succeeds_foldl_iff
    (hstep : ∀ front next remarks entry, Outcome.foldl step start front = .ok (next, remarks) →
      EntryAgrees graph form front entry (step next entry)) (entries : List (α × α)) :
    (Outcome.foldl step start entries).Succeeds ↔ EntriesConform graph readable form entries := by
  induction entries using List.reverseRecOn with
  | nil => exact ⟨fun _ => entriesConform_nil, fun _ => ⟨start, [], rfl⟩⟩
  | append_singleton front entry ih =>
    rw [entriesConform_concat_iff, Outcome.foldl_append, Outcome.succeeds_andThen, ← ih]
    simp only [Outcome.foldl, Outcome.succeeds_andThen]
    constructor
    · rintro ⟨next, remarks, hfront, last, own, hlast, _⟩
      exact ⟨⟨next, remarks, hfront⟩, (hstep front next remarks entry hfront).succeeds.mp ⟨last, own, hlast⟩⟩
    · rintro ⟨⟨next, remarks, hfront⟩, hentry⟩
      obtain ⟨last, own, hlast⟩ := (hstep front next remarks entry hfront).succeeds.mpr hentry
      exact ⟨next, remarks, hfront, last, own, hlast, last, [], rfl⟩

/-- Entries are refused for the first one that may not stand behind those before it. -/
theorem foldl_eq_error_iff_entryFault
    (hstep : ∀ front next remarks entry, Outcome.foldl step start front = .ok (next, remarks) →
      EntryAgrees graph form front entry (step next entry)) (entries : List (α × α)) (refusal : Refusal) :
    Outcome.foldl step start entries = .error refusal ↔
      ∃ address front entry back, entries = front ++ entry :: back ∧ EntriesConform graph readable form front ∧
        EntryFault graph readable form front entry refusal.cause address refusal.location := by
  rw [Outcome.foldl_eq_error_iff]
  constructor
  · rintro ⟨front, entry, back, next, remarks, hentries, hfront, hentry⟩
    obtain ⟨address, hfault⟩ := ((hstep front next remarks entry hfront).refuses refusal).mp hentry
    exact ⟨address, front, entry, back, hentries, (succeeds_foldl_iff hstep front).mp ⟨next, remarks, hfront⟩, hfault⟩
  · rintro ⟨address, front, entry, back, hentries, hconform, hfault⟩
    obtain ⟨next, remarks, hfront⟩ := (succeeds_foldl_iff hstep front).mpr hconform
    exact ⟨front, entry, back, next, remarks, hentries, hfront,
      ((hstep front next remarks entry hfront).refuses refusal).mpr ⟨address, hfault⟩⟩

/-- The outcome of checking a map as a whole agrees with its form. -/
structure WholeAgrees (graph : Graph α) (form : Form) (entries : List (α × α)) (o : Outcome σ) : Prop where
  succeeds : o.Succeeds ↔ Whole graph form entries
  refuses : ∀ refusal, o = .error refusal ↔ WholeFault graph entries form refusal.cause ∧ refusal.location = []

/-- A map with which nothing is wrong as a whole may be kept. -/
theorem wholeAgrees_pure {entries : List (α × α)} {value : σ} (hwhole : Whole graph form entries)
    (hfault : ∀ cause, ¬ WholeFault graph entries form cause) :
    WholeAgrees graph form entries (.pure value : Outcome σ) := by
  constructor
  · exact ⟨fun _ => hwhole, fun _ => ⟨value, [], rfl⟩⟩
  · intro refusal
    constructor
    · intro h
      exact absurd h (by simp)
    · rintro ⟨h, _⟩
      exact absurd h (hfault _)

/-- A refusal of a map as a whole agrees with its form if it names what is wrong with it. -/
theorem wholeAgrees_refuse {entries : List (α × α)} {own : Cause} (hnot : ¬ Whole graph form entries)
    (hfault : ∀ cause, WholeFault graph entries form cause ↔ cause = own) :
    WholeAgrees graph form entries (.refuse own : Outcome σ) := by
  constructor
  · constructor
    · rintro ⟨_, _, h⟩
      exact absurd h (by simp)
    · intro h
      exact absurd h hnot
  · rintro ⟨cause, location⟩
    rw [Outcome.refuse_eq_error_iff, Refusal.mk.injEq, hfault]

/-- A map agrees with its form if each of its entries does, and the whole. -/
theorem agrees_map {node : α} {entries : List (α × α)} {check : σ → Outcome σ} (hkind : form.kind? = some .map)
    (hnode : graph node = .map entries)
    (hstep : ∀ front next remarks entry, Outcome.foldl step start front = .ok (next, remarks) →
      EntryAgrees graph form front entry (step next entry))
    (hcheck : ∀ value remarks, Outcome.foldl step start entries = .ok (value, remarks) →
      WholeAgrees graph form entries (check value)) :
    Agrees graph form node ((Outcome.foldl step start entries).andThen check) := by
  constructor
  · simp only [conforms_map_iff hkind, hnode, Shape.map.injEq, exists_eq_left', ← succeeds_foldl_iff hstep,
      Outcome.succeeds_andThen]
    constructor
    · rintro ⟨value, remarks, hvalue, hwhole⟩
      exact ⟨⟨value, remarks, hvalue⟩, (hcheck value remarks hvalue).succeeds.mp hwhole⟩
    · rintro ⟨⟨value, remarks, hvalue⟩, hwhole⟩
      exact ⟨value, remarks, hvalue, (hcheck value remarks hvalue).succeeds.mpr hwhole⟩
  · intro refusal
    simp only [firstViolation_map_iff hkind, hnode, Outcome.andThen_eq_error_iff,
      foldl_eq_error_iff_entryFault hstep, Shape.map.injEq, exists_eq_left']
    constructor
    · rintro (⟨address, hfault⟩ | ⟨value, remarks, hvalue, hrefused⟩)
      · exact ⟨address, Or.inr (Or.inl hfault)⟩
      · obtain ⟨hfault, hlocation⟩ := ((hcheck value remarks hvalue).refuses refusal).mp hrefused
        have hconform := (succeeds_foldl_iff hstep entries).mp ⟨value, remarks, hvalue⟩
        exact ⟨[], Or.inr (Or.inr ⟨hconform, hfault, rfl, hlocation⟩)⟩
    · rintro ⟨address, ⟨hother, _⟩ | hfault | ⟨hconform, hfault, _, hlocation⟩⟩
      · exact absurd rfl hother
      · exact Or.inl ⟨address, hfault⟩
      · obtain ⟨value, remarks, hvalue⟩ := (succeeds_foldl_iff hstep entries).mpr hconform
        exact Or.inr ⟨value, remarks, hvalue, ((hcheck value remarks hvalue).refuses refusal).mpr ⟨hfault, hlocation⟩⟩

end

/-! ## Settings -/

/-- The settings that were read are known by the keys in front, in order. -/
theorem keys_of_readSettingEntry {front : List (α × α)} {seen : List (String × String)} {remarks : List Remark}
    (h : Outcome.foldl (readSettingEntry graph) [] front = .ok (seen, remarks)) :
    seen.map Prod.fst = keysOf graph front := by
  induction front using List.reverseRecOn generalizing seen remarks with
  | nil =>
    obtain ⟨rfl, _⟩ := Outcome.pure_eq_ok_iff.mp h
    rfl
  | append_singleton front entry ih =>
    rw [Outcome.foldl_append] at h
    obtain ⟨next, own, last, hfront, hlast, _⟩ := Outcome.andThen_eq_ok_iff.mp h
    simp only [Outcome.foldl] at hlast
    obtain ⟨value, _, _, hentry, hvalue, _⟩ := Outcome.andThen_eq_ok_iff.mp hlast
    obtain ⟨rfl, _⟩ := Outcome.pure_eq_ok_iff.mp hvalue
    unfold readSettingEntry at hentry
    split at hentry
    · rename_i name hname
      split at hentry
      · exact absurd hentry (by simp)
      · obtain ⟨text, _, rfl⟩ := Outcome.map_eq_ok_iff.mp hentry
        rw [List.map_append, ih hfront, keysOf_append, keysOf_cons hname]
        rfl
    · exact absurd hentry (by simp)

/-- An entry of the settings agrees with their form. -/
theorem entryAgrees_readSettingEntry {front : List (α × α)} {seen : List (String × String)}
    (hseen : seen.map Prod.fst = keysOf graph front) (entry : α × α) :
    EntryAgrees graph .settings front entry (readSettingEntry graph seen entry) := by
  obtain ⟨key, child⟩ := entry
  unfold readSettingEntry
  cases hkey : graph key with
  | scalar name =>
    have hlookup : (seen.lookup name).isSome = true ↔ name ∈ keysOf graph front := by
      rw [← hseen, List.lookup_isSome_iff]
      simp [@eq_comm _ name]
    dsimp only
    split
    · rename_i h
      rw [hlookup] at h
      refine entryAgrees_refuse ?_ fun _ _ _ => entryFault_iff_of_repeated hkey h
      rintro ⟨_, _, hname, _, hnew, _⟩
      obtain rfl := Shape.scalar.inj (hkey.symm.trans hname)
      exact absurd h (hnew rfl)
    · rename_i h
      rw [hlookup] at h
      exact entryAgrees_of_known hkey rfl (fun _ => h) (((agrees_readText child).atNode.below (.key name)).map _)
  | sequence items => exact entryAgrees_odd hkey (by simp [Shape.kind])
  | map entries => exact entryAgrees_odd hkey (by simp [Shape.kind])

theorem agrees_readSettings (node : α) : Agrees graph .settings node (readSettings graph node) := by
  unfold readSettings
  cases hnode : graph node with
  | map entries =>
    dsimp only
    rw [readSettingEntries_eq_foldl, ← Outcome.andThen_pure (Outcome.foldl _ _ _)]
    refine agrees_map rfl hnode ?_ ?_
    · intro front seen remarks entry hfront
      exact entryAgrees_readSettingEntry (keys_of_readSettingEntry hfront) entry
    · intro value remarks _
      refine wholeAgrees_pure trivial ?_
      intro cause hfault
      cases hfault
  | scalar text => exact agrees_wrongShape .settings rfl hnode (by simp [Shape.kind])
  | sequence items => exact agrees_wrongShape .settings rfl hnode (by simp [Shape.kind])

end Postmortem
