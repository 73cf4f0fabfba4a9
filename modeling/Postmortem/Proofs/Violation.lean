import Postmortem.Proofs.Format
set_option autoImplicit false

/-!
# Violations: maps entry by entry

What a map has to be, and what is wrong with it, put in terms of one entry and the ones before it.  Here the relations
of the format get the shape of a walk along the entries, which is how a reader meets them.
-/

namespace Postmortem

open Postmortem.Node

variable {α : Type} (graph : Graph α)

/-- An entry that may stand behind some others in a map of a form. -/
def EntryConforms (limit : Option Nat) (form : Form) (front : List (α × α)) (entry : α × α) : Prop :=
  ∃ name inner, graph entry.1 = .scalar name ∧ form.under name = some inner ∧
    (form = .settings → name ∉ keysOf graph front) ∧ Conforms graph limit inner entry.2

/-- What is wrong with an entry of a map that stands behind some others. -/
inductive EntryFault (limit : Option Nat) (form : Form) (front : List (α × α)) (entry : α × α) :
    Cause → Address → List Step → Prop where
  | odd (other : (graph entry.1).kind ≠ .scalar) :
      EntryFault limit form front entry (.wrongShape .scalarKey (graph entry.1).kind) [] []
  | unknown {e : Entity} {name : String} (isEntity : form = .entity e) (isKey : graph entry.1 = .scalar name)
      (unknown : e.format.lookup name = none) : EntryFault limit form front entry (.unknownKey e name) [] []
  | repeated {name : String} (isSettings : form = .settings) (isKey : graph entry.1 = .scalar name)
      (again : name ∈ keysOf graph front) : EntryFault limit form front entry (.duplicateSetting name) [] []
  | value {inner : Form} {name : String} {cause : Cause} {address : Address} {location : List Step}
      (isKey : graph entry.1 = .scalar name) (known : form.under name = some inner)
      (new : form = .settings → name ∉ keysOf graph front)
      (fault : FirstViolation graph limit inner entry.2 cause address location) :
      EntryFault limit form front entry cause (.entry front.length :: address)
        (form.stepsTo name (valuesUnder graph name front).length ++ location)

/-- What is wrong with a map of a form as a whole. -/
inductive WholeFault (entries : List (α × α)) : Form → Cause → Prop where
  | bothListings (incomplete : lastItems graph "IncompleteCommandBuffers" entries ≠ [])
      (all : lastItems graph "AllCommandBuffers" entries ≠ []) :
      WholeFault entries (.entity .device)
        (.bothListings (lastItems graph "IncompleteCommandBuffers" entries).length
          (lastItems graph "AllCommandBuffers" entries).length)

variable {graph}

/-! ## Entries -/

theorem entriesConform_nil {limit : Option Nat} {form : Form} : EntriesConform graph limit form [] :=
  ⟨fun _ h => absurd h (by simp), fun _ => List.nodup_nil, fun _ h => absurd h (by simp)⟩

/-- Entries may stand in a map if more may with them in front. -/
theorem EntriesConform.of_append {limit : Option Nat} {form : Form} {front back : List (α × α)}
    (h : EntriesConform graph limit form (front ++ back)) : EntriesConform graph limit form front := by
  refine ⟨?_, ?_, ?_⟩
  · exact fun other hother => h.known other (List.mem_append_left _ hother)
  · intro hform
    have hnodup := h.distinct hform
    rw [keysOf_append, List.nodup_append] at hnodup
    exact hnodup.1
  · exact fun other hother => h.conform other (List.mem_append_left _ hother)

/-- Entries may stand in a map if all but the last may and the last may stand behind them. -/
theorem entriesConform_concat_iff {limit : Option Nat} {form : Form} {front : List (α × α)} {entry : α × α} :
    EntriesConform graph limit form (front ++ [entry]) ↔
      EntriesConform graph limit form front ∧ EntryConforms graph limit form front entry := by
  constructor
  · intro h
    refine ⟨h.of_append, ?_⟩
    obtain ⟨name, inner, hname, hinner⟩ := h.known entry (by simp)
    refine ⟨name, inner, hname, hinner, ?_, h.conform entry (by simp) name inner hname hinner⟩
    intro hform hmem
    have hnodup := h.distinct hform
    rw [keysOf_append, keysOf_cons hname, List.nodup_append] at hnodup
    exact hnodup.2.2 name hmem name (by simp) rfl
  · rintro ⟨h, name, inner, hname, hinner, hnew, hconforms⟩
    refine ⟨?_, ?_, ?_⟩
    · intro other hother
      rcases List.mem_append.mp hother with hfront | hlast
      · exact h.known other hfront
      · obtain rfl := List.mem_singleton.mp hlast
        exact ⟨name, inner, hname, hinner⟩
    · intro hform
      rw [keysOf_append, keysOf_cons hname, keysOf_nil, List.nodup_append]
      refine ⟨h.distinct hform, by simp, ?_⟩
      rintro x hx y hy rfl
      obtain rfl := List.mem_singleton.mp hy
      exact hnew hform hx
    · intro other hother name' inner' hname' hinner'
      rcases List.mem_append.mp hother with hfront | hlast
      · exact h.conform other hfront name' inner' hname' hinner'
      · obtain rfl := List.mem_singleton.mp hlast
        obtain rfl : name = name' := by simpa using hname.symm.trans hname'
        obtain rfl : inner = inner' := Option.some.inj (hinner.symm.trans hinner')
        exact hconforms

section

variable {limit : Option Nat} {form : Form} {front : List (α × α)} {entry : α × α} {name : String} {cause : Cause}
  {address : Address} {location : List Step}

/-- An entry whose key is no scalar is at fault for that. -/
theorem entryFault_iff_of_odd (hother : (graph entry.1).kind ≠ .scalar) :
    EntryFault graph limit form front entry cause address location ↔
      cause = .wrongShape .scalarKey (graph entry.1).kind ∧ address = [] ∧ location = [] := by
  constructor
  · intro h
    cases h with
    | odd => exact ⟨rfl, rfl, rfl⟩
    | unknown _ isKey => exact absurd (by rw [isKey]; rfl) hother
    | repeated _ isKey => exact absurd (by rw [isKey]; rfl) hother
    | value isKey => exact absurd (by rw [isKey]; rfl) hother
  · rintro ⟨rfl, rfl, rfl⟩
    exact .odd hother

/-- An entry with a key that is not in the table of its entity is at fault for that. -/
theorem entryFault_iff_of_unknown {e : Entity} (hkey : graph entry.1 = .scalar name)
    (hunknown : e.format.lookup name = none) :
    EntryFault graph limit (.entity e) front entry cause address location ↔
      cause = .unknownKey e name ∧ address = [] ∧ location = [] := by
  constructor
  · intro h
    cases h with
    | odd other => exact absurd (by rw [hkey]; rfl) other
    | unknown isEntity isKey =>
      obtain rfl := Form.entity.inj isEntity
      obtain rfl := Shape.scalar.inj (hkey.symm.trans isKey)
      exact ⟨rfl, rfl, rfl⟩
    | repeated isSettings => cases isSettings
    | value isKey known =>
      obtain rfl := Shape.scalar.inj (hkey.symm.trans isKey)
      exact absurd (hunknown.symm.trans known) (by simp)
  · rintro ⟨rfl, rfl, rfl⟩
    exact .unknown rfl hkey hunknown

/-- A setting that is given again is at fault for that. -/
theorem entryFault_iff_of_repeated (hkey : graph entry.1 = .scalar name) (hagain : name ∈ keysOf graph front) :
    EntryFault graph limit .settings front entry cause address location ↔
      cause = .duplicateSetting name ∧ address = [] ∧ location = [] := by
  constructor
  · intro h
    cases h with
    | odd other => exact absurd (by rw [hkey]; rfl) other
    | unknown isEntity => cases isEntity
    | repeated _ isKey =>
      obtain rfl := Shape.scalar.inj (hkey.symm.trans isKey)
      exact ⟨rfl, rfl, rfl⟩
    | value isKey _ new =>
      obtain rfl := Shape.scalar.inj (hkey.symm.trans isKey)
      exact absurd hagain (new rfl)
  · rintro ⟨rfl, rfl, rfl⟩
    exact .repeated rfl hkey hagain

/-- An entry whose key is in order is at fault for what is wrong with its value. -/
theorem entryFault_iff_of_known {key child : α} {inner : Form} (hkey : graph key = .scalar name)
    (hknown : form.under name = some inner) (hnew : form = .settings → name ∉ keysOf graph front) :
    EntryFault graph limit form front (key, child) cause address location ↔
      ∃ rest more, FirstViolation graph limit inner child cause rest more ∧
        address = .entry front.length :: rest ∧
        location = form.stepsTo name (valuesUnder graph name front).length ++ more := by
  constructor
  · intro h
    cases h with
    | odd other => exact absurd (by rw [hkey]; rfl) other
    | unknown isEntity isKey unknown =>
      subst isEntity
      obtain rfl := Shape.scalar.inj (hkey.symm.trans isKey)
      exact absurd (unknown.symm.trans hknown) (by simp)
    | repeated isSettings isKey again =>
      obtain rfl := Shape.scalar.inj (hkey.symm.trans isKey)
      exact absurd again (hnew isSettings)
    | value isKey known new fault =>
      obtain rfl := Shape.scalar.inj (hkey.symm.trans isKey)
      obtain rfl := Option.some.inj (hknown.symm.trans known)
      exact ⟨_, _, fault, rfl, rfl⟩
  · rintro ⟨rest, more, fault, rfl, rfl⟩
    exact .value hkey hknown hnew fault

end

/-! ## Forms by kind -/

section

variable {limit : Option Nat} {form item : Form} {node : α} {cause : Cause} {address : Address}
  {location : List Step}

theorem firstViolation_scalar_iff (hkind : form.kind? = some .scalar) :
    FirstViolation graph limit form node cause address location ↔
      ((graph node).kind ≠ .scalar ∧ cause = .wrongShape form.expected (graph node).kind ∨
        ∃ text, graph node = .scalar text ∧ Misreads limit form text cause) ∧ address = [] ∧ location = [] := by
  constructor
  · intro h
    cases h with
    | shape asked other =>
      obtain rfl : _ = Kind.scalar := Option.some.inj (asked.symm.trans hkind)
      exact ⟨Or.inl ⟨other, rfl⟩, rfl, rfl⟩
    | scalar shape misreads => exact ⟨Or.inr ⟨_, shape, misreads⟩, rfl, rfl⟩
    | element => exact absurd hkind (by simp [Form.kind?])
    | oddKey kind => exact absurd (hkind.symm.trans kind) (by simp)
    | unknownKey => exact absurd hkind (by simp [Form.kind?])
    | repeatedKey => exact absurd hkind (by simp [Form.kind?])
    | entry kind => exact absurd (hkind.symm.trans kind) (by simp)
    | bothListings => exact absurd hkind (by simp [Form.kind?])
  · rintro ⟨h, rfl, rfl⟩
    rcases h with ⟨other, rfl⟩ | ⟨text, shape, misreads⟩
    · exact .shape hkind other
    · exact .scalar shape misreads

theorem firstViolation_sequence_iff :
    FirstViolation graph limit (.sequence item) node cause address location ↔
      ((graph node).kind ≠ .sequence ∧ cause = .wrongShape .sequence (graph node).kind ∧ address = [] ∧
        location = []) ∨
      ∃ front child back rest more, graph node = .sequence (front ++ child :: back) ∧
        (∀ other ∈ front, Conforms graph limit item other) ∧
        FirstViolation graph limit item child cause rest more ∧
        address = .element front.length :: rest ∧ location = .index front.length :: more := by
  constructor
  · intro h
    cases h with
    | shape asked other =>
      obtain rfl : _ = Kind.sequence := (Option.some.inj asked).symm
      exact Or.inl ⟨other, rfl, rfl, rfl⟩
    | scalar shape misreads => cases misreads
    | element shape before fault => exact Or.inr ⟨_, _, _, _, _, shape, before, fault, rfl, rfl⟩
    | oddKey kind => exact absurd kind (by simp [Form.kind?])
    | entry kind => exact absurd kind (by simp [Form.kind?])
  · rintro (⟨other, rfl, rfl, rfl⟩ | ⟨front, child, back, rest, more, shape, before, fault, rfl, rfl⟩)
    · exact .shape rfl other
    · exact .element shape before fault

theorem firstViolation_map_iff (hkind : form.kind? = some .map) :
    FirstViolation graph limit form node cause address location ↔
      ((graph node).kind ≠ .map ∧ cause = .wrongShape form.expected (graph node).kind ∧ address = [] ∧
        location = []) ∨
      ∃ entries, graph node = .map entries ∧
        ((∃ front entry back, entries = front ++ entry :: back ∧ EntriesConform graph limit form front ∧
            EntryFault graph limit form front entry cause address location) ∨
          EntriesConform graph limit form entries ∧ WholeFault graph entries form cause ∧ address = [] ∧
            location = []) := by
  constructor
  · intro h
    cases h with
    | shape asked other =>
      obtain rfl : _ = Kind.map := Option.some.inj (asked.symm.trans hkind)
      exact Or.inl ⟨other, rfl, rfl, rfl⟩
    | scalar shape misreads => cases misreads <;> exact absurd hkind (by simp [Form.kind?])
    | element => exact absurd hkind (by simp [Form.kind?])
    | oddKey kind shape before odd => exact Or.inr ⟨_, shape, Or.inl ⟨_, _, _, rfl, before, .odd odd⟩⟩
    | unknownKey shape before isKey unknown =>
      exact Or.inr ⟨_, shape, Or.inl ⟨_, _, _, rfl, before, .unknown rfl isKey unknown⟩⟩
    | repeatedKey shape before isKey again =>
      exact Or.inr ⟨_, shape, Or.inl ⟨_, _, _, rfl, before, .repeated rfl isKey again⟩⟩
    | entry kind shape before isKey known new fault =>
      exact Or.inr ⟨_, shape, Or.inl ⟨_, _, _, rfl, before, .value isKey known new fault⟩⟩
    | bothListings shape entriesConform incomplete all =>
      exact Or.inr ⟨_, shape, Or.inr ⟨entriesConform, .bothListings incomplete all, rfl, rfl⟩⟩
  · rintro (⟨other, rfl, rfl, rfl⟩ | ⟨entries, shape, ⟨front, entry, back, rfl, before, fault⟩ |
      ⟨conform, fault, rfl, rfl⟩⟩)
    · exact .shape hkind other
    · cases fault with
      | odd other => exact .oddKey hkind shape before other
      | unknown isEntity isKey unknown =>
        subst isEntity
        exact .unknownKey shape before isKey unknown
      | repeated isSettings isKey again =>
        subst isSettings
        exact .repeatedKey shape before isKey again
      | value isKey known new fault => exact .entry hkind shape before isKey known new fault
    · cases fault with
      | bothListings incomplete all => exact .bothListings shape conform incomplete all

/-- A node of another kind than its form asks for is at fault itself, and only for that. -/
theorem firstViolation_iff_of_kind_ne {kind : Kind} (hkind : form.kind? = some kind)
    (hother : (graph node).kind ≠ kind) :
    FirstViolation graph limit form node cause address location ↔
      cause = .wrongShape form.expected (graph node).kind ∧ address = [] ∧ location = [] := by
  constructor
  · intro h
    cases h with
    | shape asked other => exact ⟨rfl, rfl, rfl⟩
    | scalar shape misreads => cases misreads <;> simp_all [Form.kind?, Shape.kind]
    | element shape => simp_all [Form.kind?, Shape.kind]
    | oddKey asked shape => simp_all [Shape.kind]
    | unknownKey shape => simp_all [Form.kind?, Shape.kind]
    | repeatedKey shape => simp_all [Form.kind?, Shape.kind]
    | entry asked shape => simp_all [Shape.kind]
    | bothListings shape => simp_all [Form.kind?, Shape.kind]
  · rintro ⟨rfl, rfl, rfl⟩
    exact .shape hkind hother

/-- A node that conforms is of the kind that its form asks for. -/
theorem kind_of_conforms {kind : Kind} (hkind : form.kind? = some kind) (h : Conforms graph limit form node) :
    (graph node).kind = kind := by
  cases h with
  | anything => exact absurd hkind (by simp [Form.kind?])
  | scalar shape writes => cases writes <;> simp_all [Form.kind?, Shape.kind]
  | sequence shape => simp_all [Form.kind?, Shape.kind]
  | map asked shape => simp_all [Shape.kind]

theorem not_firstViolation_anything :
    ¬ FirstViolation graph limit .anything node cause address location := by
  intro h
  cases h with
  | shape asked other => exact absurd asked (by simp [Form.kind?])
  | scalar shape misreads => cases misreads
  | oddKey kind => exact absurd kind (by simp [Form.kind?])
  | entry kind => exact absurd kind (by simp [Form.kind?])

end

end Postmortem
