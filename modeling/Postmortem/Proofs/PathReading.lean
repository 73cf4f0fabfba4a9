import Postmortem.Node.Site
import Postmortem.Proofs.SitedReading
set_option autoImplicit false

/-!
# Paths read back: a path tells its location

A path puts the keys and numbers of a location behind each other.  Where a key ends is seen from the mark of what
follows it, and where a number ends from its closing bracket, so the steps can be read off one by one, unless a key is
empty or has a mark in it.  The main statement is `eq_of_pathOf_eq`.  A path is what the sites on the way are given, one
after the other, by the values of entries and the elements of sequences (`Follows.path_eq`).
-/

namespace Postmortem

open Postmortem.Node

/-! ## Texts and marks -/

section

variable {mark : Char → Prop} {front front' tail tail' : List Char}

/-- Nothing stands between an end without marks and a tail that is empty or begins with a mark. -/
theorem eq_nil_of_marked {between : List Char} (hfront : ∀ c ∈ front ++ between, ¬mark c)
    (htail : ∀ c ∈ (between ++ tail).head?, mark c) : between = [] := by
  cases between with
  | nil => rfl
  | cons c rest => exact absurd (htail c rfl) (hfront c (by simp))

/-- A text without marks and a tail that is empty or begins with a mark are told apart in the whole. -/
theorem append_inj_of_marked (hfront : ∀ c ∈ front, ¬mark c) (hfront' : ∀ c ∈ front', ¬mark c)
    (htail : ∀ c ∈ tail.head?, mark c) (htail' : ∀ c ∈ tail'.head?, mark c)
    (h : front ++ tail = front' ++ tail') : front = front' ∧ tail = tail' := by
  rcases List.append_eq_append_iff.mp h with ⟨between, rfl, rfl⟩ | ⟨between, rfl, rfl⟩
  · obtain rfl := eq_nil_of_marked hfront' htail
    simp
  · obtain rfl := eq_nil_of_marked hfront htail'
    simp

end

/-! ## Shown steps -/

/-- The characters that a step begins with behind a path. -/
def BeginsStep (c : Char) : Prop := c = '.' ∨ c = '['

/-- A text without the characters that stand around keys and numbers in a path. -/
def Unmarked (text : String) : Prop := ∀ c ∈ text.toList, c ∉ ['.', '[', ']']

instance (text : String) : Decidable (Unmarked text) := List.decidableBAll _ text.toList

/-- A key that can be told from what stands around it in a path. -/
structure IsPathName (name : String) : Prop where
  ne_empty : name ≠ ""
  unmarked : Unmarked name

instance (name : String) : Decidable (IsPathName name) :=
  decidable_of_iff (name ≠ "" ∧ Unmarked name)
    ⟨fun ⟨hempty, hmarks⟩ => ⟨hempty, hmarks⟩, fun h => ⟨h.ne_empty, h.unmarked⟩⟩

/-- A step that is told from what stands around it: any number, and a key if it is no empty text and has no marks. -/
def IsNamed : Step → Prop
  | .key name => IsPathName name
  | .index _ => True

instance : DecidablePred IsNamed
  | .key name => inferInstanceAs (Decidable (IsPathName name))
  | .index _ => inferInstanceAs (Decidable True)

/-- A location of such steps. -/
def WellNamed (location : List Step) : Prop := ∀ step ∈ location, IsNamed step

instance (location : List Step) : Decidable (WellNamed location) :=
  inferInstanceAs (Decidable (∀ step ∈ location, IsNamed step))

theorem IsPathName.not_beginsStep {name : String} (h : IsPathName name) : ∀ c ∈ name.toList, ¬BeginsStep c := by
  intro c hc hbegins
  rcases hbegins with rfl | rfl <;> exact h.unmarked _ hc (by simp)

theorem wellNamed_nil : WellNamed [] := fun _ h => absurd h (by simp)

theorem wellNamed_cons_iff {step : Step} {location : List Step} :
    WellNamed (step :: location) ↔ IsNamed step ∧ WellNamed location := List.forall_mem_cons

theorem wellNamed_append_iff {location further : List Step} :
    WellNamed (location ++ further) ↔ WellNamed location ∧ WellNamed further := List.forall_mem_append

/-- A decimal numeral tells its number. -/
theorem eq_of_decimal_digits_eq {n m : Nat} (h : Text.Numeral.digits 10 n = Text.Numeral.digits 10 m) : n = m := by
  have hten : 1 < 10 ∧ 10 ≤ 16 := by decide
  calc
    n = Text.Numeral.value 10 (Text.Numeral.digits 10 n) := (Text.Numeral.value_digits hten.1 hten.2 n).symm
    _ = Text.Numeral.value 10 (Text.Numeral.digits 10 m) := by rw [h]
    _ = m := Text.Numeral.value_digits hten.1 hten.2 m

theorem ne_bracket_of_mem_digits (n : Nat) : ∀ c ∈ Text.Numeral.digits 10 n, c ≠ ']' :=
  forall_mem_digits (by decide) (by decide) n

theorem toList_shownStep_key (name : String) : (shownStep (.key name)).toList = '.' :: name.toList := by
  simp [shownStep]

theorem toList_shownStep_index (number : Nat) :
    (shownStep (.index number)).toList = '[' :: (Text.Numeral.digits 10 number ++ [']']) := by
  simp [shownStep, Text.Numeral.decimal]

theorem shownBehind_cons (step : Step) (location : List Step) :
    shownBehind (step :: location) = shownStep step ++ shownBehind location := by
  rw [shownBehind, List.map_cons, String.join_cons]
  rfl

/-- What is shown behind a path is nothing, or it begins as a step does. -/
theorem beginsStep_of_head? (location : List Step) : ∀ c ∈ (shownBehind location).toList.head?, BeginsStep c := by
  intro c hc
  cases location with
  | nil => exact absurd hc (by simp [shownBehind])
  | cons step rest =>
    rw [shownBehind_cons, String.toList_append] at hc
    cases step with
    | key name =>
      rw [toList_shownStep_key] at hc
      exact Or.inl (Option.some.inj hc).symm
    | index number =>
      rw [toList_shownStep_index] at hc
      exact Or.inr (Option.some.inj hc).symm

/-- A key in front and what is shown behind it are told apart. -/
theorem name_inj {name name' : String} {location location' : List Step} (hname : IsPathName name)
    (hname' : IsPathName name') (h : name ++ shownBehind location = name' ++ shownBehind location') :
    name = name' ∧ shownBehind location = shownBehind location' := by
  have hlists := congrArg String.toList h
  rw [String.toList_append, String.toList_append] at hlists
  obtain ⟨hfront, htail⟩ := append_inj_of_marked hname.not_beginsStep hname'.not_beginsStep
    (beginsStep_of_head? location) (beginsStep_of_head? location') hlists
  exact ⟨String.toList_inj.mp hfront, String.toList_inj.mp htail⟩

/-- A number in front and what is shown behind it are told apart. -/
theorem number_inj {number number' : Nat} {tail tail' : List Char}
    (h : Text.Numeral.digits 10 number ++ ']' :: tail = Text.Numeral.digits 10 number' ++ ']' :: tail') :
    number = number' ∧ tail = tail' := by
  obtain ⟨hdigits, htail⟩ := @append_inj_of_marked (· = ']') _ _ _ _ (ne_bracket_of_mem_digits number)
    (ne_bracket_of_mem_digits number') (by simp) (by simp) h
  exact ⟨eq_of_decimal_digits_eq hdigits, (List.cons.inj htail).2⟩

/-- A step behind a path and what is shown behind it are told apart. -/
theorem shownStep_inj {step step' : Step} {location location' : List Step} (hstep : IsNamed step)
    (hstep' : IsNamed step')
    (h : shownStep step ++ shownBehind location = shownStep step' ++ shownBehind location') :
    step = step' ∧ shownBehind location = shownBehind location' := by
  have hlists := congrArg String.toList h
  rw [String.toList_append, String.toList_append] at hlists
  cases step with
  | key name =>
    cases step' with
    | key name' =>
      rw [toList_shownStep_key, toList_shownStep_key, List.cons_append, List.cons_append, ← String.toList_append,
        ← String.toList_append] at hlists
      obtain ⟨rfl, hbehind⟩ := name_inj hstep hstep' (String.toList_inj.mp (List.cons.inj hlists).2)
      exact ⟨rfl, hbehind⟩
    | index number' =>
      rw [toList_shownStep_key, toList_shownStep_index] at hlists
      exact absurd (List.cons.inj hlists).1 (by decide)
  | index number =>
    cases step' with
    | key name' =>
      rw [toList_shownStep_key, toList_shownStep_index] at hlists
      exact absurd (List.cons.inj hlists).1 (by decide)
    | index number' =>
      rw [toList_shownStep_index, toList_shownStep_index, List.cons_append, List.cons_append, List.append_assoc,
        List.append_assoc] at hlists
      obtain ⟨rfl, hbehind⟩ := number_inj (List.cons.inj hlists).2
      exact ⟨rfl, String.toList_inj.mp hbehind⟩

theorem shownStep_append_ne_empty (step : Step) (tail : String) : shownStep step ++ tail ≠ "" := by
  intro h
  have hempty := (String.append_eq_empty_iff.mp h).1
  cases step with
  | key name => exact absurd (congrArg String.toList hempty) (by simp [toList_shownStep_key])
  | index number => exact absurd (congrArg String.toList hempty) (by simp [toList_shownStep_index])

/-- What is shown behind a path tells the steps, if their keys are well named. -/
theorem eq_of_shownBehind_eq {location location' : List Step} (hnamed : WellNamed location)
    (hnamed' : WellNamed location') (h : shownBehind location = shownBehind location') : location = location' := by
  induction location generalizing location' with
  | nil =>
    cases location' with
    | nil => rfl
    | cons step' rest' =>
      rw [shownBehind_cons] at h
      exact absurd h.symm (shownStep_append_ne_empty step' _)
  | cons step rest ih =>
    cases location' with
    | nil =>
      rw [shownBehind_cons] at h
      exact absurd h (shownStep_append_ne_empty step _)
    | cons step' rest' =>
      rw [shownBehind_cons, shownBehind_cons] at h
      obtain ⟨hstep, hrest⟩ := wellNamed_cons_iff.mp hnamed
      obtain ⟨hstep', hrest'⟩ := wellNamed_cons_iff.mp hnamed'
      obtain ⟨rfl, hbehind⟩ := shownStep_inj hstep hstep' h
      rw [ih hrest hrest' hbehind]

/-! ## Paths -/

theorem pathOf_key (name : String) (location : List Step) :
    pathOf (.key name :: location) = name ++ shownBehind location := rfl

/-- A path that begins with no key is as it would be behind another path. -/
theorem pathOf_eq_shownBehind {location : List Step} (h : ∀ name rest, location ≠ .key name :: rest) :
    pathOf location = shownBehind location := by
  cases location with
  | nil => rfl
  | cons step rest =>
    cases step with
    | key name => exact absurd rfl (h name rest)
    | index number =>
      rw [shownBehind_cons]
      rfl

/-- A path that begins with a key is the path of no location that does not. -/
theorem pathOf_key_ne {name : String} (hname : IsPathName name) (location : List Step) {other : List Step}
    (hother : ∀ name' rest, other ≠ .key name' :: rest) : pathOf (.key name :: location) ≠ pathOf other := by
  intro h
  rw [pathOf_key, pathOf_eq_shownBehind hother] at h
  have hlists := congrArg String.toList h
  rw [String.toList_append] at hlists
  -- The other path has the empty text where this one has the key.
  obtain ⟨hempty, _⟩ := append_inj_of_marked hname.not_beginsStep (by simp) (beginsStep_of_head? location)
    (beginsStep_of_head? other) (hlists.trans (List.nil_append _).symm)
  exact hname.ne_empty (String.toList_inj.mp hempty)

/-- Different locations with well named keys have different paths. -/
theorem eq_of_pathOf_eq {location location' : List Step} (hnamed : WellNamed location) (hnamed' : WellNamed location')
    (h : pathOf location = pathOf location') : location = location' := by
  by_cases hkey : ∃ name rest, location = .key name :: rest
  · obtain ⟨name, rest, rfl⟩ := hkey
    obtain ⟨hname, hrest⟩ := wellNamed_cons_iff.mp hnamed
    by_cases hkey' : ∃ name' rest', location' = .key name' :: rest'
    · obtain ⟨name', rest', rfl⟩ := hkey'
      obtain ⟨hname', hrest'⟩ := wellNamed_cons_iff.mp hnamed'
      obtain ⟨rfl, hbehind⟩ := name_inj hname hname' h
      rw [eq_of_shownBehind_eq hrest hrest' hbehind]
    · exact absurd h (pathOf_key_ne hname rest (by simpa using hkey'))
  · by_cases hkey' : ∃ name' rest', location' = .key name' :: rest'
    · obtain ⟨name', rest', rfl⟩ := hkey'
      exact absurd h.symm (pathOf_key_ne (wellNamed_cons_iff.mp hnamed').1 rest' (by simpa using hkey))
    · rw [pathOf_eq_shownBehind (by simpa using hkey), pathOf_eq_shownBehind (by simpa using hkey')] at h
      exact eq_of_shownBehind_eq hnamed hnamed' h

/-- A location whose keys are well named is shown by its path. -/
theorem WellNamed.render_eq {location : List Step} (h : WellNamed location) : render "" location = pathOf location := by
  match location with
  | [] => rfl
  | .key name :: rest =>
    have hname : IsPathName name := (wellNamed_cons_iff.mp h).1
    exact render_eq_pathOf hname.ne_empty rest
  | .index number :: rest =>
    have hnumber : stepPath "" (.index number) = shownStep (.index number) := by
      rw [stepPath, indexPath, String.empty_append]
      rfl
    have hne : shownStep (.index number) ≠ "" := by
      have h := shownStep_append_ne_empty (.index number) ""
      rwa [String.append_empty] at h
    rw [render_cons, hnumber, render_eq_append hne]
    rfl

theorem eq_of_render_eq {location location' : List Step} (hnamed : WellNamed location) (hnamed' : WellNamed location')
    (h : render "" location = render "" location') : location = location' := by
  rw [hnamed.render_eq, hnamed'.render_eq] at h
  exact eq_of_pathOf_eq hnamed hnamed' h

/-! ## Sites on the way -/

section

variable {α : Type} {graph : Graph α} {s child : Site α}

/-- Some steps lead from a site to another one, through the values of entries and the elements of sequences. -/
inductive Follows (graph : Graph α) : Site α → List Step → Site α → Prop
  | here (s : Site α) : Follows graph s [] s
  | entry {s child target : Site α} {name : String} {steps : List Step} (part : (name, child) ∈ (s.entries graph).parts)
      (rest : Follows graph child steps target) : Follows graph s (.key name :: steps) target
  | element {s child target : Site α} {number : Nat} {steps : List Step}
      (part : (s.items graph).parts[number]? = some child) (rest : Follows graph child steps target) :
      Follows graph s (.index number :: steps) target

theorem path_of_mem_listEntries {path name : String} {entries : List (α × α)}
    (h : (name, child) ∈ (Site.listEntries graph path entries).parts) : child.path = keyPath path name := by
  induction entries with
  | nil => exact absurd h (by simp [Site.listEntries])
  | cons entry rest ih =>
    obtain ⟨key, node⟩ := entry
    rw [Site.listEntries] at h
    split at h
    · rcases List.mem_cons.mp h with hfirst | hrest
      · obtain ⟨rfl, rfl⟩ := Prod.mk.inj hfirst
        rfl
      · exact ih hrest
    · exact absurd h (by simp)

theorem path_of_mem_entries {name : String} (h : (name, child) ∈ (s.entries graph).parts) :
    child.path = keyPath s.path name := by
  unfold Site.entries at h
  split at h
  · exact path_of_mem_listEntries h
  · exact absurd h (by simp)

theorem path_of_getElem?_items {number : Nat} (h : (s.items graph).parts[number]? = some child) :
    child.path = indexPath s.path number := by
  unfold Site.items at h
  split at h
  · rw [List.getElem?_mapIdx] at h
    obtain ⟨node, _, rfl⟩ := Option.map_eq_some_iff.mp h
    rfl
  · exact absurd h (by simp)

/-- A site is known under the path of the steps to it. -/
theorem Follows.path_eq {steps : List Step} {target : Site α} (h : Follows graph s steps target) :
    target.path = render s.path steps := by
  induction h with
  | here s => rfl
  | entry part rest ih => rw [ih, render_cons, stepPath, path_of_mem_entries part]
  | element part rest ih => rw [ih, render_cons, stepPath, path_of_getElem?_items part]

end

/-- A tree in which some steps can be followed. -/
def treeAlong : List Step → Tree
  | [] => .scalar ""
  | .key name :: rest => .map [(.scalar name, treeAlong rest)]
  | .index number :: rest => .sequence (List.replicate number (.scalar "") ++ [treeAlong rest])

theorem exists_follows (path : String) (steps : List Step) :
    ∃ target, Follows Tree.shape ⟨some (treeAlong steps), path⟩ steps target := by
  induction steps generalizing path with
  | nil => exact ⟨_, .here _⟩
  | cons step rest ih =>
    cases step with
    | key name =>
      obtain ⟨target, hrest⟩ := ih (keyPath path name)
      exact ⟨target, .entry List.mem_cons_self hrest⟩
    | index number =>
      obtain ⟨target, hrest⟩ := ih (indexPath path number)
      refine ⟨target, .element ?_ hrest⟩
      simp [treeAlong, Site.items, Tree.shape]

end Postmortem
