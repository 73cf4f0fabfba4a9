import Mathlib.Data.List.Nodup
import Postmortem.Files.Search
set_option autoImplicit false

/-!
# Walks: every entry below a directory, once

A tree as a file system keeps it has proper names and no two entries of one name in a directory.  Below a directory of
such a tree the walk of the search meets each entry once, at every depth, and what it meets is what is found there by
its names.  Looking the whole location up from the top finds the same, unless it is too long to be looked up at all.
-/

namespace Postmortem.Files

/-! ## Proper trees -/

/-- A name that an entry can have: it stands for the entry alone, and a path can hold it. -/
structure IsName (name : String) : Prop where
  ne_empty : name ≠ ""
  ne_here : name ≠ "."
  ne_up : name ≠ ".."
  not_null : hasNull name = false

instance (name : String) : Decidable (IsName name) :=
  decidable_of_iff (name ≠ "" ∧ name ≠ "." ∧ name ≠ ".." ∧ hasNull name = false)
    ⟨fun ⟨hempty, hhere, hup, hnull⟩ => ⟨hempty, hhere, hup, hnull⟩,
      fun h => ⟨h.ne_empty, h.ne_here, h.ne_up, h.not_null⟩⟩

/-- An entry in which every directory has entries with proper names, none of them twice. -/
inductive Entry.Proper : Entry → Prop
  | file (octets : List UInt8) : Proper (.file octets)
  | link (target : String) : Proper (.link target)
  | directory {entries : Entries} (names : ∀ e ∈ entries, IsName e.1) (distinct : (entries.map Prod.fst).Nodup)
      (inner : ∀ e ∈ entries, e.2.Proper) : Proper (.directory entries)

/-- A tree as a file system keeps it. -/
def Tree.Proper (t : Tree) : Prop := (Entry.directory t.top).Proper

theorem lookup_eq_some_iff_mem {entries : Entries} {name : String} {entry : Entry}
    (h : (entries.map Prod.fst).Nodup) : entries.lookup name = some entry ↔ (name, entry) ∈ entries := by
  induction entries with
  | nil => simp
  | cons first rest ih =>
    obtain ⟨other, old⟩ := first
    rw [List.map_cons, List.nodup_cons] at h
    rw [List.lookup_cons, List.mem_cons, Prod.mk.injEq]
    by_cases hname : name = other
    · subst hname
      have habsent : (name, entry) ∉ rest := fun hmem => h.1 (List.mem_map.mpr ⟨_, hmem, rfl⟩)
      simp [habsent, eq_comm]
    · rw [beq_false_of_ne hname]
      simpa [hname] using ih h.2

theorem find?_cons_cons (entries : Entries) (name next : String) (more : Location) :
    entries.find? (name :: next :: more) =
      match entries.lookup name with
      | some (.directory inner) => Entries.find? inner (next :: more)
      | _ => none := rfl

/-- Below some entries, with these names on the way, there are the entries themselves and those below the directories
among them. -/
theorem find?_eq_some_iff {entries : Entries} {names : Location} {entry : Entry} :
    entries.find? names = some entry ↔
      ∃ name more, names = name :: more ∧ (more = [] ∧ entries.lookup name = some entry ∨
        ∃ inner, entries.lookup name = some (.directory inner) ∧ Entries.find? inner more = some entry) := by
  match names with
  | [] => simp [Entries.find?]
  | [name] => simp [Entries.find?]
  | name :: next :: more =>
    rw [find?_cons_cons]
    cases hlookup : entries.lookup name with
    | none => simp [hlookup]
    | some other => cases other <;> simp [hlookup]

theorem ne_nil_of_find? {entries : Entries} {names : Location} {entry : Entry}
    (h : entries.find? names = some entry) : names ≠ [] := by
  rintro rfl
  cases h

/-- What is found below proper entries is proper, and so are the names on the way. -/
theorem proper_of_find? {entries : Entries} (hproper : (Entry.directory entries).Proper) {names : Location}
    {entry : Entry} (h : entries.find? names = some entry) : entry.Proper ∧ ∀ name ∈ names, IsName name := by
  induction names generalizing entries with
  | nil => cases h
  | cons name more ih =>
    cases hproper with
    | directory hnames hdistinct hinner =>
      obtain ⟨_, _, ⟨⟩, hfound⟩ := find?_eq_some_iff.mp h
      rcases hfound with ⟨rfl, hlookup⟩ | ⟨inner, hlookup, hfind⟩
      · have hmem := (lookup_eq_some_iff_mem hdistinct).mp hlookup
        exact ⟨hinner _ hmem, by simpa using hnames _ hmem⟩
      · have hmem := (lookup_eq_some_iff_mem hdistinct).mp hlookup
        obtain ⟨hentry, hmore⟩ := ih (hinner _ hmem) hfind
        exact ⟨hentry, List.forall_mem_cons.mpr ⟨hnames _ hmem, hmore⟩⟩

/-! ## The walk -/

theorem walkInner_eq_flatMap (here : Location) (entries : Entries) :
    walkInner here entries = entries.flatMap fun e => walkEntry (here ++ [e.1]) e.2 := by
  induction entries with
  | nil => rw [walkInner, List.flatMap_nil]
  | cons e rest ih => rw [walkInner, ih, List.flatMap_cons]

theorem walkEntry_directory (here : Location) (entries : Entries) :
    walkEntry here (.directory entries) =
      (entries.map fun e => here ++ [e.1]) ++ entries.flatMap fun e => walkEntry (here ++ [e.1]) e.2 := by
  rw [walkEntry, walkInner_eq_flatMap]

/-- What stands below an entry, with the names that lead to it. -/
def Below : Entry → Location → Entry → Prop
  | .directory entries, names, entry => Entries.find? entries names = some entry
  | .file _, _, _ => False
  | .link _, _, _ => False

theorem mem_walkEntry {entry : Entry} (hproper : entry.Proper) (here l : Location) :
    l ∈ walkEntry here entry ↔ ∃ names found, Below entry names found ∧ l = here ++ names := by
  induction hproper generalizing here with
  | file octets => simp [walkEntry, Below]
  | link target => simp [walkEntry, Below]
  | @directory entries hnames hdistinct hinner ih =>
    rw [walkEntry_directory, List.mem_append, List.mem_map, List.mem_flatMap]
    constructor
    · rintro (⟨⟨name, entry⟩, hmem, rfl⟩ | ⟨⟨name, entry⟩, hmem, hl⟩)
      · have hlookup := (lookup_eq_some_iff_mem hdistinct).mpr hmem
        exact ⟨[name], entry, find?_eq_some_iff.mpr ⟨name, [], rfl, .inl ⟨rfl, hlookup⟩⟩, rfl⟩
      · have hlookup := (lookup_eq_some_iff_mem hdistinct).mpr hmem
        obtain ⟨names, found, hbelow, rfl⟩ := (ih _ hmem _).mp hl
        cases entry with
        | file octets => exact hbelow.elim
        | link target => exact hbelow.elim
        | directory inner =>
          exact ⟨name :: names, found, find?_eq_some_iff.mpr ⟨name, names, rfl, .inr ⟨inner, hlookup, hbelow⟩⟩,
            by simp⟩
    · rintro ⟨names, found, hfind, rfl⟩
      obtain ⟨name, more, rfl, ⟨rfl, hlookup⟩ | ⟨inner, hlookup, hmore⟩⟩ := find?_eq_some_iff.mp hfind
      · exact .inl ⟨_, (lookup_eq_some_iff_mem hdistinct).mp hlookup, rfl⟩
      · have hmem := (lookup_eq_some_iff_mem hdistinct).mp hlookup
        exact .inr ⟨_, hmem, (ih _ hmem _).mpr ⟨more, found, hmore, by simp⟩⟩

/-- What stands below an entry is further down than the entry itself. -/
theorem exists_of_mem_walkEntry {entry : Entry} (hproper : entry.Proper) {here l : Location}
    (h : l ∈ walkEntry here entry) : ∃ name more, l = here ++ name :: more := by
  obtain ⟨names, found, hbelow, rfl⟩ := (mem_walkEntry hproper here l).mp h
  cases entry with
  | file octets => exact hbelow.elim
  | link target => exact hbelow.elim
  | directory entries =>
    obtain ⟨name, more, rfl, _⟩ := find?_eq_some_iff.mp hbelow
    exact ⟨name, more, rfl⟩

theorem nodup_walkEntry {entry : Entry} (hproper : entry.Proper) (here : Location) :
    (walkEntry here entry).Nodup := by
  induction hproper generalizing here with
  | file octets => simp [walkEntry]
  | link target => simp [walkEntry]
  | @directory entries hnames hdistinct hinner ih =>
    rw [walkEntry_directory]
    refine List.nodup_append'.mpr ⟨?_, List.nodup_flatMap.mpr ⟨fun e he => ih e he _, ?_⟩, ?_⟩
    · rw [show (entries.map fun e => here ++ [e.1]) = (entries.map Prod.fst).map fun name => here ++ [name] by simp]
      exact hdistinct.map fun _ _ h => by simpa using h
    · -- locations below two entries differ in the names of these
      refine (List.pairwise_map.mp hdistinct).imp_of_mem ?_
      intro e e' he he' hne l hl hl'
      obtain ⟨_, _, rfl⟩ := exists_of_mem_walkEntry (hinner e he) hl
      obtain ⟨_, _, heq⟩ := exists_of_mem_walkEntry (hinner e' he') hl'
      simp only [List.append_assoc, List.append_cancel_left_eq, List.singleton_append, List.cons.injEq] at heq
      exact hne heq.1
    · -- and they are deeper than the entries
      intro l hl hl'
      obtain ⟨e, he, rfl⟩ := List.mem_map.mp hl
      obtain ⟨e', he', hmem⟩ := List.mem_flatMap.mp hl'
      obtain ⟨_, _, heq⟩ := exists_of_mem_walkEntry (hinner e' he') hmem
      simp at heq

/-- A list of locations that has each entry below a directory once, in any order. -/
structure IsWalk (root : Location) (entries : Entries) (walk : List Location) : Prop where
  nodup : walk.Nodup
  mem_iff : ∀ l, l ∈ walk ↔ ∃ names entry, entries.find? names = some entry ∧ l = root ++ names

/-- A way to walk through what is below a directory. -/
abbrev Walk : Type := Location → Entries → List Location

/-- A way to walk that leaves nothing out and goes nowhere twice. -/
def Walk.Enumerates (walk : Walk) : Prop :=
  ∀ root entries, (Entry.directory entries).Proper → IsWalk root entries (walk root entries)

/-- The walk of the search: the entries of a directory, and then those of its subdirectories. -/
def walkBelow : Walk := fun root entries => walkEntry root (.directory entries)

theorem enumerates_walkBelow : walkBelow.Enumerates := fun root _ hproper =>
  ⟨nodup_walkEntry hproper root, mem_walkEntry hproper root⟩

/-! ## Looking up what was met -/

theorem entry?_append_singleton {t : Tree} {here : Location} {entries : Entries}
    (h : t.entry? here = some (.directory entries)) (name : String) :
    t.entry? (here ++ [name]) = entries.lookup name := by
  have hdeeper : ∀ (outer : Entries) (names : Location), outer.find? names = some (.directory entries) →
      outer.find? (names ++ [name]) = entries.lookup name := by
    intro outer names
    induction names generalizing outer with
    | nil => exact fun hfind => absurd hfind (by simp [Entries.find?])
    | cons first more ih =>
      intro hfind
      obtain ⟨_, _, ⟨⟩, ⟨rfl, hlookup⟩ | ⟨inner, hlookup, hmore⟩⟩ := find?_eq_some_iff.mp hfind
      · simp [Entries.find?, hlookup]
      · obtain ⟨second, rest, rfl, _⟩ := find?_eq_some_iff.mp hmore
        simp only [List.cons_append, find?_cons_cons, hlookup]
        exact ih inner hmore
  cases here with
  | nil =>
    obtain rfl := Entry.directory.inj (Option.some.inj h)
    rfl
  | cons first more => exact hdeeper t.top (first :: more) h

theorem proper_at_entry {t : Tree} (ht : t.Proper) {here : Location} {entry : Entry}
    (h : t.entry? here = some entry) : entry.Proper := by
  cases here with
  | nil =>
    obtain rfl := Option.some.inj h
    exact ht
  | cons first more => exact (proper_of_find? ht h).1

section

variable {t : Tree} {entries : Entries}

/-- A lookup that gets to a directory, gets through it: more names are looked up from the place of the directory on,
though fewer links may then be followed. -/
def GetsThrough (t : Tree) (follow : Location → List String → Except Obstacle Entry) : Prop :=
  ∀ here parts entries, follow here parts = .ok (.directory entries) →
    ∃ links there, t.entry? there = some (.directory entries) ∧
      ∀ names, follow here (parts ++ names) = t.lookFrom links there names

theorem getsThrough_lookParts {follow : Location → List String → Except Obstacle Entry} (links : Nat)
    (hfollow : GetsThrough t follow) (hlinks : t.lookFrom links = t.lookParts follow) :
    GetsThrough t (t.lookParts follow) := by
  intro here parts entries h
  induction parts generalizing here with
  | nil =>
    rw [Tree.lookParts] at h
    split at h
    · rename_i hentry
      obtain rfl := Except.ok.inj h
      exact ⟨links, here, hentry, fun names => by rw [hlinks, List.nil_append]⟩
    · cases h
  | cons name rest ih =>
    simp only [List.cons_append]
    rw [Tree.lookParts] at h
    simp only [Tree.lookParts]
    cases hentry : t.entry? here with
    | none => simp [hentry] at h
    | some entry =>
      cases entry with
      | file octets => simp [hentry] at h
      | link target => simp [hentry] at h
      | directory other =>
        simp only [hentry] at h ⊢
        split_ifs at h ⊢
        · exact ih here h
        · exact ih _ h
        · split at h
          · exact ih _ h
          · obtain ⟨_, there, hthere, hthrough⟩ := hfollow _ _ _ h
            exact ⟨_, there, hthere, fun names => by rw [← List.append_assoc, hthrough]⟩

theorem getsThrough_lookFrom (t : Tree) (links : Nat) : GetsThrough t (t.lookFrom links) := by
  induction links with
  | zero => exact getsThrough_lookParts 0 (fun _ _ _ h => by cases h) rfl
  | succ links ih => exact getsThrough_lookParts (links + 1) ih rfl

/-- What stands below a directory is found by its names, if they are not too long. -/
theorem lookFrom_eq_ok_or (ht : t.Proper) (links : Nat) {here names : Location} {entry : Entry}
    (hhere : t.entry? here = some (.directory entries)) (hfind : entries.find? names = some entry)
    (hlink : ∀ target, entry ≠ .link target) :
    t.lookFrom links here names = .ok entry ∨ t.lookFrom links here names = .error .tooLong := by
  obtain ⟨follow, hfollow⟩ : ∃ follow, t.lookFrom links = t.lookParts follow := by
    cases links with
    | zero => exact ⟨_, rfl⟩
    | succ links => exact ⟨_, rfl⟩
  rw [hfollow]
  induction names generalizing here entries with
  | nil => cases hfind
  | cons name more ih =>
    have hname : IsName name := (proper_of_find? (proper_at_entry ht hhere) hfind).2 name (by simp)
    have hnext : t.entry? (here ++ [name]) = entries.lookup name := entry?_append_singleton hhere name
    simp only [Tree.lookParts, hhere, hname.ne_empty, hname.ne_here, hname.ne_up, or_self, if_false]
    split_ifs
    · exact .inr rfl
    · obtain ⟨_, _, ⟨⟩, ⟨rfl, hlookup⟩ | ⟨inner, hlookup, hmore⟩⟩ := find?_eq_some_iff.mp hfind
      · have hnone : t.link? (here ++ [name]) = none := by
          rw [Tree.link?, hnext, hlookup]
          cases entry with
          | link target => exact absurd rfl (hlink target)
          | file octets => rfl
          | directory inner => rfl
        simp [hnone, Tree.lookParts, hnext, hlookup]
      · have hnone : t.link? (here ++ [name]) = none := by rw [Tree.link?, hnext, hlookup]
        rw [hnone]
        exact ih (hnext.trans hlookup) hmore

/-- A directory that is found in a proper tree is proper. -/
theorem proper_of_look (ht : t.Proper) {root : Location} (h : t.look root = .ok (.directory entries)) :
    (Entry.directory entries).Proper := by
  unfold Tree.look at h
  split_ifs at h
  obtain ⟨_, _, hthere, _⟩ := getsThrough_lookFrom t maxLinks _ _ _ h
  exact proper_at_entry ht hthere

theorem hasNull_path (l : Location) : hasNull l.path = l.any hasNull := by
  have hjoined : ∀ names : List (List Char),
      '\x00' ∈ ['/'].intercalate names ↔ ∃ name ∈ names, '\x00' ∈ name := by
    intro names
    induction names with
    | nil => simp
    | cons name rest ih =>
      cases rest with
      | nil => simp
      | cons next more =>
        rw [List.intercalate_cons_cons, List.mem_append, List.mem_append, ih]
        simp
  rw [Bool.eq_iff_iff]
  simp [hasNull, Location.path, hjoined]

/-- What stands below a directory is found where it stands, if the path to it is not too long. -/
theorem look_append_eq_ok_or (ht : t.Proper) {root names : Location} {entry : Entry}
    (hroot : t.look root = .ok (.directory entries)) (hfind : entries.find? names = some entry)
    (hlink : ∀ target, entry ≠ .link target) :
    t.look (root ++ names) = .ok entry ∨ t.look (root ++ names) = .error .tooLong := by
  unfold Tree.look at hroot ⊢
  split_ifs at hroot with hnull hlong
  obtain ⟨links, there, hthere, hthrough⟩ := getsThrough_lookFrom t maxLinks _ _ _ hroot
  have hnames := (proper_of_find? (proper_at_entry ht hthere) hfind).2
  have hproper : ¬hasNull (Location.path (root ++ names)) := by
    rw [hasNull_path, List.any_append, ← hasNull_path, Bool.or_eq_true, not_or, List.any_eq_true]
    exact ⟨hnull, fun ⟨name, hmem, hname⟩ => by simp [(hnames name hmem).not_null] at hname⟩
  rw [if_neg hproper]
  split_ifs
  · exact .inr rfl
  · rw [hthrough]
    exact lookFrom_eq_ok_or ht links hthere hfind hlink

end

end Postmortem.Files
