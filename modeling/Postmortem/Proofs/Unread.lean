import Postmortem.Proofs.Reports
set_option autoImplicit false

/-!
# Unread values: what the format asks nothing of

Under a few keys anything may stand.  `Unread` says where that is in a document: an entry under such a key in a map that
the format leads to.  A document may share nodes, so an entry is told apart by the way to it and not by its map, and the
ways are in the order in which the document is gone through.  The main statements are `mem_unreadIn_iff` and
`pairwise_unreadIn`: `unreadIn` lists just these entries, each once and in order.
-/

namespace Postmortem

open Postmortem.Node

/-! ## Lists -/

/-- The members of a list, each with those before it; `front` stands before them all. -/
def withFronts {τ : Type} : (front : List τ) → List τ → List (List τ × τ)
  | _, [] => []
  | front, x :: rest => (front, x) :: withFronts (front ++ [x]) rest

section

variable {τ : Type}

theorem withFronts_append (front list more : List τ) :
    withFronts front (list ++ more) = withFronts front list ++ withFronts (front ++ list) more := by
  induction list generalizing front with
  | nil => simp [withFronts]
  | cons x rest ih => simp [withFronts, ih]

theorem withFronts_eq_map (front list : List τ) :
    withFronts front list = (withFronts [] list).map fun part => (front ++ part.1, part.2) := by
  suffices h : ∀ between, withFronts (front ++ between) list =
      (withFronts between list).map fun part => (front ++ part.1, part.2) by
    simpa using h []
  induction list with
  | nil => exact fun _ => rfl
  | cons x rest ih =>
    intro between
    rw [withFronts, withFronts, List.map_cons, List.append_assoc, ih]

theorem mem_withFronts_iff {front before list : List τ} {x : τ} :
    (before, x) ∈ withFronts front list ↔
      ∃ between after, list = between ++ x :: after ∧ before = front ++ between := by
  induction list generalizing front with
  | nil => simp [withFronts]
  | cons y rest ih =>
    rw [withFronts, List.mem_cons, ih]
    constructor
    · intro h
      rcases h with heq | ⟨between, after, rfl, rfl⟩
      · obtain ⟨rfl, rfl⟩ := Prod.mk.inj heq
        exact ⟨[], rest, rfl, by simp⟩
      · exact ⟨y :: between, after, rfl, by simp⟩
    · intro h
      obtain ⟨between, after, hlist, rfl⟩ := h
      cases between with
      | nil =>
        obtain ⟨rfl, rfl⟩ := List.cons.inj hlist
        exact Or.inl (by simp)
      | cons z between =>
        obtain ⟨rfl, rfl⟩ := List.cons.inj hlist
        exact Or.inr ⟨between, after, rfl, by simp⟩

theorem mem_withFronts_nil_iff {before list : List τ} {x : τ} :
    (before, x) ∈ withFronts [] list ↔ ∃ after, list = before ++ x :: after := by
  rw [mem_withFronts_iff]
  simp

/-- The members are numbered by those in front. -/
theorem map_withFronts_eq_zipIdx (front list : List τ) :
    (withFronts front list).map (fun part => (part.2, part.1.length)) = list.zipIdx front.length := by
  induction list generalizing front with
  | nil => rfl
  | cons x rest ih => rw [withFronts, List.map_cons, ih, List.zipIdx_cons, List.length_append, List.length_singleton]

/-- More and more members stand in front. -/
theorem pairwise_withFronts (front list : List τ) :
    (withFronts front list).Pairwise fun a b => a.1.length < b.1.length := by
  induction list generalizing front with
  | nil => exact List.Pairwise.nil
  | cons x rest ih =>
    rw [withFronts, List.pairwise_cons]
    refine ⟨?_, ih (front ++ [x])⟩
    intro later hlater
    obtain ⟨between, _, _, hbefore⟩ := mem_withFronts_iff.mp hlater
    rw [hbefore]
    simp only [List.length_append, List.length_cons]
    omega

end

/-! ## Forms below forms -/

/-- The height of a form: more than that of the forms that stand below it. -/
def Form.height : Form → Nat
  | .text | .uint _ | .flag | .handle | .anything => 0
  | .settings => 1
  | .sequence item => item.height + 1
  | .entity e => 2 * e.rank + 2

theorem Entity.height_format (e : Entity) : ∀ row ∈ e.format, row.2.height < (Form.entity e).height := by
  cases e <;> decide

/-- Only settings and entities ask for something under a key. -/
theorem Form.under_cases {form inner : Form} {name : String} (h : form.under name = some inner) :
    (form = .settings ∧ inner = .text) ∨ ∃ e, form = .entity e ∧ e.format.lookup name = some inner := by
  cases form with
  | settings => exact Or.inl ⟨rfl, (Option.some.inj h).symm⟩
  | entity e => exact Or.inr ⟨e, rfl, h⟩
  | _ => exact absurd h (by simp [Form.under])

theorem Entity.mem_format {e : Entity} {name : String} {form : Form} (h : e.format.lookup name = some form) :
    (name, form) ∈ e.format := by
  obtain ⟨front, back, hformat, _⟩ := List.lookup_eq_some_iff.mp h
  rw [hformat]
  simp

theorem Form.height_of_under {form inner : Form} {name : String} (h : form.under name = some inner) :
    inner.height < form.height := by
  rcases Form.under_cases h with ⟨rfl, rfl⟩ | ⟨e, rfl, hlookup⟩
  · exact Nat.zero_lt_one
  · exact e.height_format _ (Entity.mem_format hlookup)

/-- Induction along the forms that stand below each other: something holds of all forms if it holds of an entity when it
does of all lower forms, of a sequence when it does of its elements, and of the other forms. -/
@[elab_as_elim]
theorem Form.inductionOnHeight {motive : Form → Prop}
    (entity : ∀ e, (∀ inner, inner.height < (Form.entity e).height → motive inner) → motive (.entity e))
    (sequence : ∀ item, motive item → motive (.sequence item))
    (leaf : ∀ form : Form, (∀ e, form ≠ .entity e) → (∀ item, form ≠ .sequence item) → motive form) (form : Form) :
    motive form := by
  induction hheight : form.height using Nat.strongRecOn generalizing form with
  | _ height ih =>
    subst hheight
    cases form with
    | entity e => exact entity e fun inner hlt => ih inner.height hlt inner rfl
    | sequence item => exact sequence item (ih item.height (Nat.lt_succ_self _) item rfl)
    | _ => exact leaf _ (by simp) (by simp)

/-! ## The order of a document -/

/-- The number of a part among the parts of its node. -/
def Move.number : Move → Nat
  | .entry number => number
  | .element number => number

/-- One way is before another in the order in which a document is gone through: where they part, it takes a part with a
lower number, or it ends. -/
def Address.Before (a b : Address) : Prop := List.Lex (fun m m' : Move => m.number < m'.number) a b

theorem Address.before_of_number {m m' : Move} (h : m.number < m'.number) (a b : Address) :
    Address.Before (m :: a) (m' :: b) := List.Lex.rel h

theorem Address.Before.behind {a b : Address} (h : a.Before b) (m : Move) : Address.Before (m :: a) (m :: b) :=
  List.Lex.cons h

/-- A way is not before itself. -/
theorem Address.Before.ne {a b : Address} (h : a.Before b) : a ≠ b := by
  induction h with
  | nil => simp
  | cons _ ih => exact fun heq => ih (List.cons.inj heq).2
  | rel hlt =>
    intro heq
    rw [(List.cons.inj heq).1] at hlt
    exact Nat.lt_irrefl _ hlt

/-! ## Entries that nothing is asked of -/

/-- An entry of a map of an entity, with the way to the map and the steps under which the map is known. -/
structure Occurrence (α : Type) where
  entity : Entity
  key : String
  map : α
  /-- the number of entries before it in its map -/
  number : Nat
  address : Address := []
  location : List Step := []

namespace Occurrence

variable {α : Type}

/-- The way to the value of the entry. -/
def way (o : Occurrence α) : Address := o.address ++ [.entry o.number]

/-- The steps under which the value of the entry is known. -/
def place (o : Occurrence α) : List Step := o.location ++ [.key o.key]

/-- The same entry as seen from a node above, with the move to where it was seen from and the steps for that. -/
def below (move : Move) (steps : List Step) (o : Occurrence α) : Occurrence α :=
  { o with address := move :: o.address, location := steps ++ o.location }

@[simp] theorem entity_below (move : Move) (steps : List Step) (o : Occurrence α) :
    (o.below move steps).entity = o.entity := rfl

@[simp] theorem key_below (move : Move) (steps : List Step) (o : Occurrence α) :
    (o.below move steps).key = o.key := rfl

@[simp] theorem way_below (move : Move) (steps : List Step) (o : Occurrence α) :
    (o.below move steps).way = move :: o.way := rfl

@[simp] theorem place_below (move : Move) (steps : List Step) (o : Occurrence α) :
    (o.below move steps).place = steps ++ o.place := by
  simp [place, below]

end Occurrence

section

variable {α : Type} (graph : Graph α)

/-- An entry that the format leads to from a node of a form, and of whose value it asks nothing. -/
structure Unread (form : Form) (node : α) (o : Occurrence α) : Prop where
  leads : Leads graph form node o.address o.location (.entity o.entity) o.map
  entry : ∃ front key child back, graph o.map = .map (front ++ (key, child) :: back) ∧
    graph key = .scalar o.key ∧ front.length = o.number
  unasked : o.entity.format.lookup o.key = some .anything

variable {graph}

/-- A way can be gone on with. -/
theorem Leads.trans {form middle target : Form} {node between place : α} {address more : Address}
    {location further : List Step} (h : Leads graph form node address location middle between)
    (h' : Leads graph middle between more further target place) :
    Leads graph form node (address ++ more) (location ++ further) target place := by
  induction h with
  | here form node => exact h'
  | entry shape isKey known rest ih =>
    rw [List.append_assoc]
    exact .entry shape isKey known (ih h')
  | element shape rest ih => exact .element shape (ih h')

/-- What a form has if a form below it does, it has if it leads to one that does. -/
theorem Leads.upward {p : Form → Prop} (htext : ¬p .text) (hitem : ∀ item, p item → p (.sequence item))
    (hrow : ∀ e : Entity, ∀ row ∈ e.format, p row.2 → p (.entity e)) {form target : Form} {node place : α}
    {address : Address} {location : List Step} (h : Leads graph form node address location target place)
    (htarget : p target) : p form := by
  induction h with
  | here form node => exact htarget
  | entry shape isKey known rest ih =>
    rcases Form.under_cases known with ⟨rfl, rfl⟩ | ⟨e, rfl, hlookup⟩
    · exact absurd (ih htarget) htext
    · exact hrow e _ (Entity.mem_format hlookup) (ih htarget)
  | element shape rest ih => exact hitem _ (ih htarget)

/-- The way of an unread entry leads to its value, which is known under the place of the entry. -/
theorem Unread.leads_child {form : Form} {node key child : α} {o : Occurrence α} {front back : List (α × α)}
    (h : Unread graph form node o) (shape : graph o.map = .map (front ++ (key, child) :: back))
    (isKey : graph key = .scalar o.key) (hnumber : front.length = o.number) :
    Leads graph form node o.way o.place .anything child := by
  have hknown : (Form.entity o.entity).under o.key = some .anything := h.unasked
  have hlast := Leads.entry shape isKey hknown (.here .anything child)
  -- Only the devices of a dump are numbered.
  have hsteps : (Form.entity o.entity).stepsTo o.key (valuesUnder graph o.key front).length = [.key o.key] := by
    unfold Form.stepsTo
    split
    · rename_i hdevice
      obtain ⟨hentity, hkey⟩ := hdevice
      have hunasked := h.unasked
      rw [Form.entity.inj hentity, hkey] at hunasked
      exact absurd hunasked (by decide)
    · rfl
  rw [hsteps, hnumber] at hlast
  exact h.leads.trans hlast

theorem Unread.leads_value {form : Form} {node : α} {o : Occurrence α} (h : Unread graph form node o) :
    ∃ child, Leads graph form node o.way o.place .anything child := by
  obtain ⟨front, key, child, back, shape, isKey, hnumber⟩ := h.entry
  exact ⟨child, h.leads_child shape isKey hnumber⟩

/-- An unread entry of an entity is one of its map, or it is below one of the values there. -/
theorem unread_entity_iff {e : Entity} {node : α} {o : Occurrence α} :
    Unread graph (.entity e) node o ↔
      ∃ front entry back, graph node = .map (front ++ entry :: back) ∧ ∃ name, graph entry.1 = .scalar name ∧
        ((e.format.lookup name = some .anything ∧ o = ⟨e, name, node, front.length, [], []⟩) ∨
          ∃ inner own, (Form.entity e).under name = some inner ∧ Unread graph inner entry.2 own ∧
            o = own.below (.entry front.length)
              ((Form.entity e).stepsTo name (valuesUnder graph name front).length)) := by
  constructor
  · intro h
    obtain ⟨entity, key, map, number, address, location⟩ := o
    obtain ⟨hleads, hentry, hunasked⟩ := h
    cases hleads with
    | here =>
      obtain ⟨front, node', child, back, hshape, hkey, rfl⟩ := hentry
      exact ⟨front, _, back, hshape, key, hkey, Or.inl ⟨hunasked, rfl⟩⟩
    | entry shape isKey known rest =>
      exact ⟨_, _, _, shape, _, isKey, Or.inr ⟨_, ⟨entity, key, map, number, _, _⟩, known,
        ⟨rest, hentry, hunasked⟩, rfl⟩⟩
  · intro h
    obtain ⟨front, ⟨key, child⟩, back, shape, name, isKey, ⟨unasked, rfl⟩ | ⟨inner, own, known, hown, rfl⟩⟩ := h
    · exact ⟨.here _ _, ⟨front, key, child, back, shape, isKey, rfl⟩, unasked⟩
    · exact ⟨.entry shape isKey known hown.leads, hown.entry, hown.unasked⟩

/-- An unread entry of a sequence is below one of its elements. -/
theorem unread_sequence_iff {item : Form} {node : α} {o : Occurrence α} :
    Unread graph (.sequence item) node o ↔
      ∃ front child back own, graph node = .sequence (front ++ child :: back) ∧ Unread graph item child own ∧
        o = own.below (.element front.length) [.index front.length] := by
  constructor
  · intro h
    obtain ⟨entity, key, map, number, address, location⟩ := o
    obtain ⟨hleads, hentry, hunasked⟩ := h
    cases hleads with
    | entry shape isKey known rest => exact absurd known (by simp [Form.under])
    | element shape rest =>
      exact ⟨_, _, _, ⟨entity, key, map, number, _, _⟩, shape, ⟨rest, hentry, hunasked⟩, rfl⟩
  · intro h
    obtain ⟨front, child, back, own, shape, hown, rfl⟩ := h
    exact ⟨.element shape hown.leads, hown.entry, hown.unasked⟩

/-- No other form has something unread below it: the values of settings are texts. -/
theorem not_unread_of_leaf {form : Form} (hentity : ∀ e, form ≠ .entity e)
    (hsequence : ∀ item, form ≠ .sequence item) {node : α} {o : Occurrence α} : ¬ Unread graph form node o := by
  intro h
  obtain ⟨entity, key, map, number, address, location⟩ := o
  cases h.leads with
  | here => exact hentity entity rfl
  | element shape rest => exact hsequence _ rfl
  | entry shape isKey known rest =>
    rcases Form.under_cases known with ⟨rfl, rfl⟩ | ⟨e, rfl, _⟩
    · cases rest with
      | entry shape isKey known rest => exact absurd known (by simp [Form.under])
    · exact hentity e rfl

/-! ## The list of them -/

variable (graph)

/-- The unread entries at an entry of an entity: itself, or what is listed below its value. -/
def unreadAt (e : Entity) (lower : (inner : Form) → inner.height < (Form.entity e).height → α → List (Occurrence α))
    (node : α) (front : List (α × α)) (entry : α × α) : List (Occurrence α) :=
  match keyOf graph entry.1 with
  | none => []
  | some name =>
    match known : (Form.entity e).under name with
    | none => []
    | some .anything => [⟨e, name, node, front.length, [], []⟩]
    | some inner =>
      (lower inner (Form.height_of_under known) entry.2).map
        (·.below (.entry front.length) ((Form.entity e).stepsTo name (valuesUnder graph name front).length))

/-- The entries of a map; any other node has none. -/
def pairsOf (node : α) : List (α × α) :=
  match graph node with
  | .map entries => entries
  | _ => []

/-- The unread entries of a node of a form and below it, in the order of the document. -/
def unreadIn (form : Form) (node : α) : List (Occurrence α) :=
  match form with
  | .sequence item =>
    (withFronts [] (itemsOf graph node)).flatMap fun part =>
      (unreadIn item part.2).map (·.below (.element part.1.length) [.index part.1.length])
  | .entity e =>
    (withFronts [] (pairsOf graph node)).flatMap fun part =>
      unreadAt graph e (fun inner _ child => unreadIn inner child) node part.1 part.2
  | _ => []
termination_by form.height
decreasing_by
  · exact Nat.lt_succ_self _
  · assumption

variable {graph}

theorem mem_withFronts_itemsOf {node child : α} {front : List α} :
    (front, child) ∈ withFronts [] (itemsOf graph node) ↔
      ∃ back, graph node = .sequence (front ++ child :: back) := by
  rw [mem_withFronts_nil_iff, itemsOf]
  cases graph node <;> simp

theorem mem_withFronts_pairsOf {node : α} {entry : α × α} {front : List (α × α)} :
    (front, entry) ∈ withFronts [] (pairsOf graph node) ↔
      ∃ back, graph node = .map (front ++ entry :: back) := by
  rw [mem_withFronts_nil_iff, pairsOf]
  cases graph node <;> simp

theorem unreadIn_sequence (item : Form) (node : α) :
    unreadIn graph (.sequence item) node =
      (withFronts [] (itemsOf graph node)).flatMap fun part =>
        (unreadIn graph item part.2).map (·.below (.element part.1.length) [.index part.1.length]) := by
  rw [unreadIn]

theorem unreadIn_entity (e : Entity) (node : α) :
    unreadIn graph (.entity e) node =
      (withFronts [] (pairsOf graph node)).flatMap fun part =>
        unreadAt graph e (fun inner _ child => unreadIn graph inner child) node part.1 part.2 := by
  rw [unreadIn]

/-- Only entities and sequences have something unread below them. -/
theorem unreadIn_eq_nil {form : Form} (hentity : ∀ e, form ≠ .entity e) (hsequence : ∀ item, form ≠ .sequence item)
    (node : α) : unreadIn graph form node = [] := by
  rw [unreadIn]
  · exact hsequence
  · exact hentity

section

variable {e : Entity} {node key child : α} {front : List (α × α)} {name : String}
  {lower : (inner : Form) → inner.height < (Form.entity e).height → α → List (Occurrence α)}

theorem unreadAt_of_odd (h : keyOf graph key = none) : unreadAt graph e lower node front (key, child) = [] := by
  simp only [unreadAt, h]

theorem unreadAt_of_unknown (h : graph key = .scalar name) (hunknown : (Form.entity e).under name = none) :
    unreadAt graph e lower node front (key, child) = [] := by
  simp only [unreadAt, keyOf_eq_some_iff.mpr h]
  split <;> simp_all

theorem unreadAt_of_unasked (h : graph key = .scalar name) (hunasked : (Form.entity e).under name = some .anything) :
    unreadAt graph e lower node front (key, child) = [⟨e, name, node, front.length, [], []⟩] := by
  simp only [unreadAt, keyOf_eq_some_iff.mpr h]
  split <;> simp_all

theorem unreadAt_of_asked {inner : Form} (h : graph key = .scalar name)
    (hknown : (Form.entity e).under name = some inner) (hasked : inner ≠ .anything) :
    unreadAt graph e lower node front (key, child) =
      (lower inner (Form.height_of_under hknown) child).map
        (·.below (.entry front.length) ((Form.entity e).stepsTo name (valuesUnder graph name front).length)) := by
  simp only [unreadAt, keyOf_eq_some_iff.mpr h]
  split
  · rename_i hunknown
    exact absurd (hunknown.symm.trans hknown) (by simp)
  · rename_i hunasked
    exact absurd (Option.some.inj (hknown.symm.trans hunasked)) hasked
  · rename_i other _ hother
    obtain rfl := Option.some.inj (hknown.symm.trans hother)
    rfl

end

theorem not_unread_anything {node : α} {o : Occurrence α} : ¬ Unread graph .anything node o :=
  not_unread_of_leaf (by simp) (by simp)

/-- What is listed at an entry is unread, if that is so of what is listed below its value. -/
theorem mem_unreadAt_iff {e : Entity} {node : α} {front : List (α × α)} {entry : α × α}
    {lower : (inner : Form) → inner.height < (Form.entity e).height → α → List (Occurrence α)}
    (hlower : ∀ inner h child own, own ∈ lower inner h child ↔ Unread graph inner child own) {o : Occurrence α} :
    o ∈ unreadAt graph e lower node front entry ↔
      ∃ name, graph entry.1 = .scalar name ∧
        ((e.format.lookup name = some .anything ∧ o = ⟨e, name, node, front.length, [], []⟩) ∨
          ∃ inner own, (Form.entity e).under name = some inner ∧ Unread graph inner entry.2 own ∧
            o = own.below (.entry front.length) ((Form.entity e).stepsTo name (valuesUnder graph name front).length)) := by
  obtain ⟨key, child⟩ := entry
  cases hkey : keyOf graph key with
  | none =>
    rw [unreadAt_of_odd hkey]
    have hodd : ∀ name, graph key ≠ .scalar name := by
      intro name hname
      rw [keyOf_eq_some_iff.mpr hname] at hkey
      exact absurd hkey (by simp)
    simp [hodd]
  | some name =>
    have hname := keyOf_eq_some_iff.mp hkey
    simp only [hname, Shape.scalar.injEq, exists_eq_left']
    cases hknown : (Form.entity e).under name with
    | none =>
      have hlookup : e.format.lookup name = none := hknown
      simp [unreadAt_of_unknown hname hknown, hlookup]
    | some inner =>
      have hlookup : e.format.lookup name = some inner := hknown
      by_cases hasked : inner = .anything
      · subst hasked
        simp [unreadAt_of_unasked hname hknown, hlookup, not_unread_anything]
      · rw [unreadAt_of_asked hname hknown hasked]
        simp [hlower, hlookup, hasked, eq_comm]

/-- The unread entries at a node and below it are listed. -/
theorem mem_unreadIn_iff {form : Form} {node : α} {o : Occurrence α} :
    o ∈ unreadIn graph form node ↔ Unread graph form node o := by
  -- A graph may be cyclic: what goes down is the form.
  induction form using Form.inductionOnHeight generalizing node o with
  | entity e ih =>
    have hlower : ∀ inner (_ : inner.height < (Form.entity e).height) child own,
        own ∈ unreadIn graph inner child ↔ Unread graph inner child own := fun inner hlt child own => ih inner hlt
    rw [unread_entity_iff, unreadIn_entity, List.mem_flatMap]
    constructor
    · intro h
      obtain ⟨⟨front, entry⟩, hsplit, ho⟩ := h
      obtain ⟨back, hshape⟩ := mem_withFronts_pairsOf.mp hsplit
      exact ⟨front, entry, back, hshape, (mem_unreadAt_iff hlower).mp ho⟩
    · intro h
      obtain ⟨front, entry, back, hshape, ho⟩ := h
      exact ⟨(front, entry), mem_withFronts_pairsOf.mpr ⟨back, hshape⟩, (mem_unreadAt_iff hlower).mpr ho⟩
  | sequence item ih =>
    rw [unread_sequence_iff, unreadIn_sequence, List.mem_flatMap]
    constructor
    · intro h
      obtain ⟨⟨front, child⟩, hsplit, ho⟩ := h
      obtain ⟨back, hshape⟩ := mem_withFronts_itemsOf.mp hsplit
      obtain ⟨own, hown, rfl⟩ := List.mem_map.mp ho
      exact ⟨front, child, back, own, hshape, ih.mp hown, rfl⟩
    · intro h
      obtain ⟨front, child, back, own, hshape, hown, rfl⟩ := h
      exact ⟨(front, child), mem_withFronts_itemsOf.mpr ⟨back, hshape⟩, List.mem_map.mpr ⟨own, ih.mpr hown, rfl⟩⟩
  | leaf form hentity hsequence =>
    rw [unreadIn_eq_nil hentity hsequence]
    exact ⟨fun h => absurd h (by simp), fun h => absurd h (not_unread_of_leaf hentity hsequence)⟩

/-- What is listed at an entry goes through the entry. -/
theorem way_of_mem_unreadAt {e : Entity} {node : α} {front : List (α × α)} {entry : α × α}
    {lower : (inner : Form) → inner.height < (Form.entity e).height → α → List (Occurrence α)} {o : Occurrence α}
    (h : o ∈ unreadAt graph e lower node front entry) : ∃ rest, o.way = .entry front.length :: rest := by
  unfold unreadAt at h
  split at h
  · exact absurd h (by simp)
  · split at h
    · exact absurd h (by simp)
    · obtain rfl := List.mem_singleton.mp h
      exact ⟨[], rfl⟩
    · obtain ⟨own, _, rfl⟩ := List.mem_map.mp h
      exact ⟨own.way, rfl⟩

theorem pairwise_unreadAt {e : Entity} {node : α} {front : List (α × α)} {entry : α × α}
    {lower : (inner : Form) → inner.height < (Form.entity e).height → α → List (Occurrence α)}
    (hlower : ∀ inner h child, (lower inner h child).Pairwise fun o o' => o.way.Before o'.way) :
    (unreadAt graph e lower node front entry).Pairwise fun o o' => o.way.Before o'.way := by
  unfold unreadAt
  split
  · exact List.Pairwise.nil
  · split
    · exact List.Pairwise.nil
    · exact List.pairwise_singleton _ _
    · rw [List.pairwise_map]
      exact (hlower _ _ _).imp fun hbefore => hbefore.behind _

/-- The list is in the order of the document, with no entry twice. -/
theorem pairwise_unreadIn (form : Form) (node : α) :
    (unreadIn graph form node).Pairwise fun o o' => o.way.Before o'.way := by
  induction form using Form.inductionOnHeight generalizing node with
  | entity e ih =>
    rw [unreadIn_entity, List.pairwise_flatMap]
    refine ⟨fun part _ => pairwise_unreadAt ih, ?_⟩
    refine (pairwise_withFronts [] _).imp ?_
    intro part part' hlt o ho o' ho'
    obtain ⟨rest, hway⟩ := way_of_mem_unreadAt ho
    obtain ⟨rest', hway'⟩ := way_of_mem_unreadAt ho'
    rw [hway, hway']
    apply Address.before_of_number
    exact hlt
  | sequence item ih =>
    rw [unreadIn_sequence, List.pairwise_flatMap]
    refine ⟨?_, ?_⟩
    · intro part _
      rw [List.pairwise_map]
      exact (ih part.2).imp fun hbefore => hbefore.behind _
    · refine (pairwise_withFronts [] _).imp ?_
      intro part part' hlt o ho o' ho'
      obtain ⟨own, _, rfl⟩ := List.mem_map.mp ho
      obtain ⟨own', _, rfl⟩ := List.mem_map.mp ho'
      apply Address.before_of_number
      exact hlt
  | leaf form hentity hsequence =>
    rw [unreadIn_eq_nil hentity hsequence]
    exact List.Pairwise.nil

end

end Postmortem
