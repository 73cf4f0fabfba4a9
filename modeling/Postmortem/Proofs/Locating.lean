import Postmortem.Proofs.Faults
import Postmortem.Proofs.Walking
set_option autoImplicit false

/-!
# Locating: the one dump below a directory

The search finds a dump if it is the only one below the directory, fails if there is none, and names the first two of
its walk if there are more.  Which of these it is, and where the dump is, depends on the dumps below the directory
alone, not on the walk nor on anything else in the tree.

There is one exception.  The search does not know how to fail where the file system does: where the home directory that
the path begins with is unknown, where the directory cannot be resolved, and where something that it comes across is too
long to be looked up, whatever its name is.  Then it stops with that, though there may be a single dump, or none.  The
main statement is `search_decides`.
-/

namespace Postmortem.Files

/-! ## What is searched -/

/-- The search, with any walk in place of its own. -/
def locateBy (walk : Walk) (t : Tree) (name directory : String) : Except Fault Location :=
  match t.place directory with
  | .error fault => .error fault
  | .ok root =>
    match t.target root with
    | .error fault => .error fault
    | .ok (some (.directory entries)) => decideWalk t name root none (walk root entries)
    | .ok _ => .error (.notDirectory root.path)

/-- A path leads to a directory with these entries. -/
structure IsRoot (t : Tree) (directory : String) (root : Location) (entries : Entries) : Prop where
  place : t.place directory = .ok root
  look : t.look root = .ok (.directory entries)

/-- The dumps below a directory: files with the name, and links with the name that lead to a file.  The way from the
directory to them goes through directories only. -/
inductive IsDump (t : Tree) (name directory : String) : Location → Prop
  | file {root names : Location} {entries : Entries} {octets : List UInt8}
      (hroot : IsRoot t directory root entries) (hfind : entries.find? names = some (.file octets))
      (hname : names.getLast? = some name) : IsDump t name directory (root ++ names)
  | link {root names : Location} {entries : Entries} {target : String} {octets : List UInt8}
      (hroot : IsRoot t directory root entries) (hfind : entries.find? names = some (.link target))
      (hname : names.getLast? = some name) (hlook : t.look (root ++ names) = .ok (.file octets)) :
      IsDump t name directory (root ++ names)

/-- What keeps the file system from answering the search: a home directory is unknown, the directory cannot be resolved,
its path is too long, or so is an entry that the search looks at, which it does until it has met two dumps. -/
inductive Hindrance (t : Tree) (name directory : String) (walk : Walk) : Fault → Prop
  | homeless {fault : Fault} (hexpand : t.homes.expand directory = .error fault) : Hindrance t name directory walk fault
  | unresolved {path : String} {fault : Fault} (hexpand : t.homes.expand directory = .ok path)
      (hdestination : t.destination path = .error fault) : Hindrance t name directory walk fault
  | root {root : Location} (hplace : t.place directory = .ok root) (hlook : t.look root = .error .tooLong) :
      Hindrance t name directory walk (.pathTooLong root.path)
  | below {root l : Location} {entries : Entries} {front rest : List Location}
      (hroot : IsRoot t directory root entries) (hwalk : walk root entries = front ++ l :: rest)
      (hfront : ∀ l' ∈ front, t.look l' ≠ .error .tooLong)
      (hsingle : ∀ a ∈ front, ∀ b ∈ front, IsDump t name directory a → IsDump t name directory b → a = b)
      (hlook : t.look l = .error .tooLong) : Hindrance t name directory walk (.pathTooLong l.path)

/-- The file system answers whatever the search asks. -/
def Unhindered (t : Tree) (name directory : String) (walk : Walk) : Prop :=
  ∀ fault, ¬Hindrance t name directory walk fault

/-- The first two in a list with a property. -/
def FirstTwo (P : Location → Prop) (walk : List Location) (first second : Location) : Prop :=
  ∃ front middle rest, walk = front ++ first :: (middle ++ second :: rest) ∧ P first ∧ P second ∧
    (∀ l ∈ front, ¬P l) ∧ ∀ l ∈ middle, ¬P l

/-- An outcome of a search is as the dumps below the directory tell. -/
structure Decides (t : Tree) (name directory : String) (walk : Walk) (outcome : Except Fault Location) : Prop where
  /-- a hindrance stops the search, and with a fault that is not about what was searched -/
  stopped : ∀ fault, Hindrance t name directory walk fault → outcome = .error fault ∧ fault.isSearch = false
  /-- there is no directory to search -/
  no_directory : ∀ root, t.place directory = .ok root → (∀ entries, t.look root ≠ .ok (.directory entries)) →
    t.look root ≠ .error .tooLong → outcome = .error (.notDirectory root.path)
  /-- there is no dump -/
  absent : Unhindered t name directory walk → ∀ root entries, IsRoot t directory root entries →
    (∀ l, ¬IsDump t name directory l) → outcome = .error (.noDump name root.path)
  /-- there is one dump -/
  unique : Unhindered t name directory walk → ∀ l, (∀ l', IsDump t name directory l' ↔ l' = l) → outcome = .ok l
  /-- there are more -/
  several : Unhindered t name directory walk → ∀ root entries, IsRoot t directory root entries →
    ∀ l l', IsDump t name directory l → IsDump t name directory l' → l ≠ l' →
      ∃ first second, FirstTwo (IsDump t name directory) (walk root entries) first second ∧ first ≠ second ∧
        outcome = .error (.ambiguous name first.path second.path)
  /-- what is found is the one dump, even if nothing is known about hindrances -/
  of_found : ∀ l, outcome = .ok l → ∀ l', IsDump t name directory l' ↔ l' = l

/-! ## What the search asks -/

section

variable {t : Tree} {name directory : String} {root l : Location} {entries : Entries}

theorem isFile_of_tooLong (h : t.look l = .error .tooLong) : t.isFile l = .error (.pathTooLong l.path) := by
  simp [Tree.isFile, Tree.target, h]

theorem exists_isFile_eq_ok (h : t.look l ≠ .error .tooLong) :
    ∃ answer, t.isFile l = .ok answer ∧ (answer = true ↔ ∃ octets, t.look l = .ok (.file octets)) := by
  unfold Tree.isFile Tree.target
  cases hlook : t.look l with
  | ok entry => cases entry <;> simp
  | error obstacle =>
    cases obstacle with
    | tooLong => exact absurd hlook h
    | _ => simp

/-- Whether the search takes a location for that of a dump. -/
def isHit (t : Tree) (name : String) (l : Location) : Bool :=
  match t.isFile l with
  | .ok answer => answer && l.getLast? == some name
  | .error _ => false

theorem IsRoot.eq {root' : Location} {entries' : Entries} (h : IsRoot t directory root entries)
    (h' : IsRoot t directory root' entries') : root' = root ∧ entries' = entries := by
  obtain rfl := Except.ok.inj (h'.place.symm.trans h.place)
  exact ⟨rfl, Entry.directory.inj (Except.ok.inj (h'.look.symm.trans h.look))⟩

/-- What the dumps below a directory are, seen from the directory. -/
theorem isDump_iff (hroot : IsRoot t directory root entries) :
    IsDump t name directory l ↔
      ∃ names entry, entries.find? names = some entry ∧ l = root ++ names ∧ names.getLast? = some name ∧
        ((∃ octets, entry = .file octets) ∨ ∃ target octets, entry = .link target ∧ t.look l = .ok (.file octets)) := by
  constructor
  · rintro (⟨hroot', hfind, hname⟩ | ⟨hroot', hfind, hname, hlook⟩)
    · obtain ⟨rfl, rfl⟩ := hroot.eq hroot'
      exact ⟨_, _, hfind, rfl, hname, .inl ⟨_, rfl⟩⟩
    · obtain ⟨rfl, rfl⟩ := hroot.eq hroot'
      exact ⟨_, _, hfind, rfl, hname, .inr ⟨_, _, rfl, hlook⟩⟩
  · rintro ⟨names, entry, hfind, rfl, hname, ⟨octets, rfl⟩ | ⟨target, octets, rfl, hlook⟩⟩
    · exact .file hroot hfind hname
    · exact .link hroot hfind hname hlook

theorem IsDump.exists_isRoot (h : IsDump t name directory l) : ∃ root entries, IsRoot t directory root entries := by
  cases h with
  | file hroot _ _ => exact ⟨_, _, hroot⟩
  | link hroot _ _ _ => exact ⟨_, _, hroot⟩

/-- The search takes for dumps what is one, among what it can look up. -/
theorem isHit_iff_isDump (ht : t.Proper) (hroot : IsRoot t directory root entries) {names : Location} {entry : Entry}
    (hfind : entries.find? names = some entry) (hlong : t.look (root ++ names) ≠ .error .tooLong) :
    isHit t name (root ++ names) = true ↔ IsDump t name directory (root ++ names) := by
  obtain ⟨answer, hisFile, hanswer⟩ := exists_isFile_eq_ok hlong
  have hlook : (∀ target, entry ≠ .link target) → t.look (root ++ names) = .ok entry := fun hlink =>
    (look_append_eq_ok_or ht hroot.look hfind hlink).resolve_right hlong
  have hlast : (root ++ names).getLast? = names.getLast? := List.getLast?_append_of_ne_nil root (ne_nil_of_find? hfind)
  rw [isHit, hisFile, hlast, Bool.and_eq_true, hanswer, beq_iff_eq, isDump_iff hroot]
  constructor
  · rintro ⟨⟨octets, hfile⟩, hname⟩
    refine ⟨names, entry, hfind, rfl, hname, ?_⟩
    cases entry with
    | file octets' => exact .inl ⟨octets', rfl⟩
    | link target => exact .inr ⟨target, octets, rfl, hfile⟩
    | directory inner => simp [hlook (by simp)] at hfile
  · rintro ⟨names', entry', hfind', heq, hname, hkind⟩
    obtain rfl := List.append_cancel_left heq
    obtain rfl := Option.some.inj (hfind.symm.trans hfind')
    rcases hkind with ⟨octets, rfl⟩ | ⟨_, octets, rfl, hfile⟩
    · exact ⟨⟨octets, hlook (by simp)⟩, hname⟩
    · exact ⟨⟨octets, hfile⟩, hname⟩

/-! ## The scan -/

/-- What the search has come to know when it has met these dumps: nothing yet, a dump, or that there are two. -/
def decideAfter (t : Tree) (name : String) (root : Location) (rest : List Location) :
    List Location → Except Fault Location
  | [] => decideWalk t name root none rest
  | [l] => decideWalk t name root (some l) rest
  | first :: second :: _ => .error (.ambiguous name first.path second.path)

/-- The scan remembers the dumps that it has met, and nothing else. -/
theorem decideWalk_append {front : List Location} (hfront : ∀ l ∈ front, t.look l ≠ .error .tooLong)
    (found : Option Location) (rest : List Location) :
    decideWalk t name root found (front ++ rest) =
      decideAfter t name root rest (found.toList ++ front.filter (isHit t name)) := by
  induction front generalizing found with
  | nil => cases found <;> rfl
  | cons l front ih =>
    obtain ⟨hl, hfront⟩ := List.forall_mem_cons.mp hfront
    obtain ⟨answer, hisFile, _⟩ := exists_isFile_eq_ok hl
    have hhit : isHit t name l = (answer && l.getLast? == some name) := by rw [isHit, hisFile]
    rw [List.cons_append, decideWalk_cons, hisFile, List.filter_cons, hhit]
    simp only
    split_ifs with htaken
    · cases found with
      | none => rw [ih hfront]; rfl
      | some first => rfl
    · exact ih hfront found

theorem decideAfter_tooLong (hlook : t.look l = .error .tooLong) (rest met : List Location) (hmet : met.length ≤ 1) :
    decideAfter t name root (l :: rest) met = .error (.pathTooLong l.path) := by
  match met with
  | [] => rw [decideAfter, decideWalk_cons, isFile_of_tooLong hlook]
  | [first] => rw [decideAfter, decideWalk_cons, isFile_of_tooLong hlook]

/-! ## The search -/

variable {walk : Walk}

theorem locateBy_of_isRoot (hroot : IsRoot t directory root entries) :
    locateBy walk t name directory = decideWalk t name root none (walk root entries) := by
  rw [locateBy, hroot.place]
  simp only [Tree.target, hroot.look]

/-- What is taken for a dump in the first part of a walk: the dumps in it, each once. -/
theorem hits_of_front (name : String) (ht : t.Proper) (hwalk : walk.Enumerates) (hroot : IsRoot t directory root entries)
    {front rest : List Location} (hsplit : walk root entries = front ++ rest)
    (hfront : ∀ l ∈ front, t.look l ≠ .error .tooLong) :
    (front.filter (isHit t name)).Nodup ∧ ∀ l ∈ front, (isHit t name l = true ↔ IsDump t name directory l) := by
  have hisWalk := hwalk root entries (proper_of_look ht hroot.look)
  constructor
  · have hnodup := hisWalk.nodup
    rw [hsplit] at hnodup
    exact (List.nodup_append'.mp hnodup).1.filter _
  · intro l hl
    obtain ⟨names, entry, hfind, rfl⟩ := (hisWalk.mem_iff l).mp (hsplit ▸ List.mem_append_left rest hl)
    exact isHit_iff_isDump ht hroot hfind (hfront _ hl)

theorem IsDump.mem_walk (ht : t.Proper) (hwalk : walk.Enumerates) (hroot : IsRoot t directory root entries)
    (h : IsDump t name directory l) : l ∈ walk root entries := by
  obtain ⟨names, entry, hfind, rfl, _⟩ := (isDump_iff hroot).mp h
  exact ((hwalk root entries (proper_of_look ht hroot.look)).mem_iff _).mpr ⟨names, entry, hfind, rfl⟩

theorem firstTwo_of_filter {test : Location → Bool} {P : Location → Prop} {front more : List Location}
    {first second : Location} (htest : ∀ l ∈ front, (test l = true ↔ P l))
    (h : front.filter test = first :: second :: more) (rest : List Location) :
    FirstTwo P (front ++ rest) first second := by
  obtain ⟨before, after, rfl, hbefore, hfirst, hafter⟩ := List.filter_eq_cons_iff.mp h
  obtain ⟨middle, last, rfl, hmiddle, hsecond, _⟩ := List.filter_eq_cons_iff.mp hafter
  refine ⟨before, middle, last ++ rest, by simp, (htest _ (by simp)).mp hfirst, (htest _ (by simp)).mp hsecond, ?_, ?_⟩
  · exact fun l hl hP => hbefore l hl ((htest l (by simp [hl])).mpr hP)
  · exact fun l hl hP => hmiddle l hl ((htest l (by simp [hl])).mpr hP)

/-- A path that leads nowhere is a hindrance. -/
theorem Hindrance.of_place {fault : Fault} (h : t.place directory = .error fault) :
    Hindrance t name directory walk fault := by
  rcases place_eq_error_iff.mp h with hexpand | ⟨path, hexpand, hdestination⟩
  · exact .homeless hexpand
  · exact .unresolved hexpand hdestination

theorem locateBy_of_unplaced {fault : Fault} (h : t.place directory = .error fault) :
    locateBy walk t name directory = .error fault ∧ fault.isSearch = false := by
  refine ⟨?_, (stops_of_place h).not_search⟩
  rw [locateBy, h]

theorem locateBy_of_hindrance (ht : t.Proper) (hwalk : walk.Enumerates) {fault : Fault}
    (h : Hindrance t name directory walk fault) :
    locateBy walk t name directory = .error fault ∧ fault.isSearch = false := by
  cases h with
  | homeless hexpand => exact locateBy_of_unplaced (place_eq_error_iff.mpr (.inl hexpand))
  | unresolved hexpand hdestination =>
    exact locateBy_of_unplaced (place_eq_error_iff.mpr (.inr ⟨_, hexpand, hdestination⟩))
  | root hplace hlook =>
    refine ⟨?_, rfl⟩
    rw [locateBy, hplace]
    simp only [Tree.target, hlook]
  | @below root l entries front rest hroot hsplit hfront hsingle hlook =>
    refine ⟨?_, rfl⟩
    obtain ⟨hnodup, hhits⟩ := hits_of_front name ht hwalk hroot hsplit hfront
    rw [locateBy_of_isRoot hroot, hsplit, decideWalk_append hfront]
    match hmatch : front.filter (isHit t name) with
    | [] => exact decideAfter_tooLong hlook rest [] (by simp)
    | [met] => exact decideAfter_tooLong hlook rest [met] (by simp)
    | first :: second :: more =>
      have hmem : ∀ l ∈ first :: second :: more, l ∈ front ∧ IsDump t name directory l := fun l hl => by
        obtain ⟨hfrontl, hhit⟩ := List.mem_filter.mp (hmatch ▸ hl)
        exact ⟨hfrontl, (hhits l hfrontl).mp hhit⟩
      obtain ⟨hfirst, hdump⟩ := hmem first (by simp)
      obtain ⟨hsecond, hdump'⟩ := hmem second (by simp)
      have heq := hsingle first hfirst second hsecond hdump hdump'
      simp [hmatch, heq] at hnodup

/-- An unhindered scan gets to the end of the walk, or to two dumps. -/
theorem Unhindered.exists_scan (h : Unhindered t name directory walk) (hroot : IsRoot t directory root entries) :
    ∃ front rest, walk root entries = front ++ rest ∧ (∀ l ∈ front, t.look l ≠ .error .tooLong) ∧
      (rest = [] ∨ ∃ a ∈ front, ∃ b ∈ front, IsDump t name directory a ∧ IsDump t name directory b ∧ a ≠ b) := by
  classical
  cases hlong : (walk root entries).find? fun l => decide (t.look l = .error .tooLong) with
  | none =>
    refine ⟨walk root entries, [], by simp, fun l hl => ?_, .inl rfl⟩
    simpa using List.find?_eq_none.mp hlong l hl
  | some l =>
    obtain ⟨hlook, front, rest, hsplit, hfront⟩ := List.find?_eq_some_iff_append.mp hlong
    replace hlook : t.look l = .error .tooLong := by simpa using hlook
    replace hfront : ∀ l' ∈ front, t.look l' ≠ .error .tooLong := fun l' hl' => by simpa using hfront l' hl'
    refine ⟨front, l :: rest, hsplit, hfront, .inr ?_⟩
    by_contra hsingle
    refine h _ (.below hroot hsplit hfront ?_ hlook)
    intro a ha b hb hdump hdump'
    by_contra hne
    exact hsingle ⟨a, ha, b, hb, hdump, hdump', hne⟩

theorem locateBy_of_none (ht : t.Proper) (hwalk : walk.Enumerates) (hfree : Unhindered t name directory walk)
    (hroot : IsRoot t directory root entries) (hnone : ∀ l, ¬IsDump t name directory l) :
    locateBy walk t name directory = .error (.noDump name root.path) := by
  obtain ⟨front, rest, hsplit, hfront, rfl | ⟨a, _, _, _, hdump, _⟩⟩ := hfree.exists_scan hroot
  · obtain ⟨_, hhits⟩ := hits_of_front name ht hwalk hroot hsplit hfront
    have hempty : front.filter (isHit t name) = [] :=
      List.filter_eq_nil_iff.mpr fun l hl hhit => hnone l ((hhits l hl).mp hhit)
    rw [locateBy_of_isRoot hroot, hsplit, decideWalk_append hfront, hempty]
    rfl
  · exact absurd hdump (hnone a)

theorem locateBy_of_one (ht : t.Proper) (hwalk : walk.Enumerates) (hfree : Unhindered t name directory walk)
    (hone : ∀ l', IsDump t name directory l' ↔ l' = l) : locateBy walk t name directory = .ok l := by
  have hdump := (hone l).mpr rfl
  obtain ⟨root, entries, hroot⟩ := hdump.exists_isRoot
  obtain ⟨front, rest, hsplit, hfront, rfl | ⟨a, _, b, _, ha, hb, hne⟩⟩ := hfree.exists_scan hroot
  · obtain ⟨hnodup, hhits⟩ := hits_of_front name ht hwalk hroot hsplit hfront
    have hmem : l ∈ front := by simpa [hsplit] using hdump.mem_walk ht hwalk hroot
    have hsingle : front.filter (isHit t name) = [l] := by
      refine List.perm_singleton.mp ((List.perm_ext_iff_of_nodup hnodup (List.nodup_singleton l)).mpr fun l' => ?_)
      rw [List.mem_filter, List.mem_singleton, ← hone l']
      exact ⟨fun h => (hhits l' h.1).mp h.2, fun h => by
        obtain rfl := (hone l').mp h
        exact ⟨hmem, (hhits _ hmem).mpr h⟩⟩
    rw [locateBy_of_isRoot hroot, hsplit, decideWalk_append hfront, hsingle]
    rfl
  · exact absurd (((hone a).mp ha).trans ((hone b).mp hb).symm) hne

theorem locateBy_of_two (ht : t.Proper) (hwalk : walk.Enumerates) (hfree : Unhindered t name directory walk)
    (hroot : IsRoot t directory root entries) {l' : Location} (hl : IsDump t name directory l)
    (hl' : IsDump t name directory l') (hne : l ≠ l') :
    ∃ first second, FirstTwo (IsDump t name directory) (walk root entries) first second ∧ first ≠ second ∧
      locateBy walk t name directory = .error (.ambiguous name first.path second.path) := by
  obtain ⟨front, rest, hsplit, hfront, hmet⟩ := hfree.exists_scan hroot
  obtain ⟨a, ha, b, hb, hdump, hdump', hab⟩ :
      ∃ a ∈ front, ∃ b ∈ front, IsDump t name directory a ∧ IsDump t name directory b ∧ a ≠ b := by
    rcases hmet with rfl | hmet
    · rw [List.append_nil] at hsplit
      exact ⟨l, hsplit ▸ hl.mem_walk ht hwalk hroot, l', hsplit ▸ hl'.mem_walk ht hwalk hroot, hl, hl', hne⟩
    · exact hmet
  obtain ⟨hnodup, hhits⟩ := hits_of_front name ht hwalk hroot hsplit hfront
  have hmema := List.mem_filter.mpr ⟨ha, (hhits a ha).mpr hdump⟩
  have hmemb := List.mem_filter.mpr ⟨hb, (hhits b hb).mpr hdump'⟩
  rw [locateBy_of_isRoot hroot, hsplit, decideWalk_append hfront]
  match hmatch : front.filter (isHit t name) with
  | [] => simp [hmatch] at hmema
  | [c] =>
    rw [hmatch, List.mem_singleton] at hmema hmemb
    exact absurd (hmema.trans hmemb.symm) hab
  | first :: second :: more =>
    refine ⟨first, second, hsplit ▸ firstTwo_of_filter hhits hmatch rest, ?_, rfl⟩
    rintro rfl
    simp [hmatch] at hnodup

/-! ## What a search comes to -/

/-- What a search comes to, whatever it says about it. -/
inductive Finding where
  /-- there is no dump, or nothing to search -/
  | missing
  /-- there is one dump, at a location -/
  | one (l : Location)
  /-- there are more dumps -/
  | several
  /-- the file system stopped the search -/
  | stopped
  deriving DecidableEq, Repr

/-- What an outcome of a search comes to. -/
def finding : Except Fault Location → Finding
  | .ok l => .one l
  | .error (.notDirectory _) => .missing
  | .error (.noDump ..) => .missing
  | .error (.ambiguous ..) => .several
  | .error _ => .stopped

/-- A finding is right about the locations with a property. -/
inductive Finding.Tells (P : Location → Prop) : Finding → Prop
  | missing (h : ∀ l, ¬P l) : Tells P .missing
  | one {l : Location} (h : ∀ l', P l' ↔ l' = l) : Tells P (.one l)
  | several {l l' : Location} (hl : P l) (hl' : P l') (hne : l ≠ l') : Tells P .several

/-- No two findings are right about the same. -/
theorem Finding.Tells.eq {P : Location → Prop} {f f' : Finding} (h : f.Tells P) (h' : f'.Tells P) : f = f' := by
  cases h with
  | missing hnone =>
    cases h' with
    | missing => rfl
    | one hone => exact absurd ((hone _).mpr rfl) (hnone _)
    | several hl => exact absurd hl (hnone _)
  | one hone =>
    cases h' with
    | missing hnone => exact absurd ((hone _).mpr rfl) (hnone _)
    | one hone' => rw [(hone' _).mp ((hone _).mpr rfl)]
    | several hl hl' hne => exact absurd (((hone _).mp hl).trans ((hone _).mp hl').symm) hne
  | several hl hl' hne =>
    cases h' with
    | missing hnone => exact absurd hl (hnone _)
    | one hone => exact absurd (((hone _).mp hl).trans ((hone _).mp hl').symm) hne
    | several => rfl

theorem locateBy_of_no_directory (hplace : t.place directory = .ok root)
    (hnone : ∀ entries, t.look root ≠ .ok (.directory entries)) (hlong : t.look root ≠ .error .tooLong) :
    locateBy walk t name directory = .error (.notDirectory root.path) := by
  rw [locateBy, hplace]
  cases hlook : t.look root with
  | ok entry =>
    cases entry with
    | directory entries => exact absurd hlook (hnone entries)
    | _ => simp [Tree.target, hlook]
  | error obstacle =>
    cases obstacle with
    | tooLong => exact absurd hlook hlong
    | _ => simp [Tree.target, hlook]

/-- An unhindered search comes to what is there. -/
theorem tells_of_unhindered (ht : t.Proper) (hwalk : walk.Enumerates) (hfree : Unhindered t name directory walk) :
    (finding (locateBy walk t name directory)).Tells (IsDump t name directory) := by
  by_cases hnone : ∀ l, ¬IsDump t name directory l
  · have hmissing : finding (locateBy walk t name directory) = .missing := by
      cases hplace : t.place directory with
      | error fault => exact absurd (.of_place hplace) (hfree fault)
      | ok root =>
        by_cases hroot : ∃ entries, t.look root = .ok (.directory entries)
        · obtain ⟨entries, hlook⟩ := hroot
          rw [locateBy_of_none ht hwalk hfree ⟨hplace, hlook⟩ hnone]
          rfl
        · rw [locateBy_of_no_directory hplace (not_exists.mp hroot) fun hlong => hfree _ (.root hplace hlong)]
          rfl
    rw [hmissing]
    exact .missing hnone
  · push Not at hnone
    obtain ⟨l, hl⟩ := hnone
    by_cases hone : ∀ l', IsDump t name directory l' → l' = l
    · have hiff : ∀ l', IsDump t name directory l' ↔ l' = l := fun l' => ⟨hone l', fun h => h ▸ hl⟩
      rw [locateBy_of_one ht hwalk hfree hiff]
      exact .one hiff
    · push Not at hone
      obtain ⟨l', hl', hne⟩ := hone
      obtain ⟨root, entries, hroot⟩ := hl.exists_isRoot
      obtain ⟨_, _, _, _, hambiguous⟩ := locateBy_of_two ht hwalk hfree hroot hl' hl hne
      rw [hambiguous]
      exact .several hl' hl hne

/-- What is found is the one dump there is. -/
theorem isDump_iff_of_locateBy (ht : t.Proper) (hwalk : walk.Enumerates)
    (hfound : locateBy walk t name directory = .ok l) (l' : Location) : IsDump t name directory l' ↔ l' = l := by
  have hfree : Unhindered t name directory walk := fun fault h => by
    have hstopped := (locateBy_of_hindrance ht hwalk h).1
    rw [hfound] at hstopped
    cases hstopped
  have htells := tells_of_unhindered ht hwalk hfree
  rw [hfound] at htells
  cases htells with
  | one h => exact h l'

/-- A search that fails for what it has searched has not come upon a single dump. -/
theorem not_single_of_isSearch (ht : t.Proper) {fault : Fault} (hlocate : locate t name directory = .error fault)
    (hsearch : fault.isSearch = true) : ¬ ∃ l, ∀ l', IsDump t name directory l' ↔ l' = l := by
  rintro ⟨l, hone⟩
  have hlocateBy : locateBy walkBelow t name directory = .error fault := hlocate
  have hfree : Unhindered t name directory walkBelow := fun other hother => by
    obtain ⟨hstopped, hnot⟩ := locateBy_of_hindrance ht enumerates_walkBelow hother
    obtain rfl := Except.error.inj (hlocateBy.symm.trans hstopped)
    exact absurd (hsearch.symm.trans hnot) (by simp)
  cases hlocateBy.symm.trans (locateBy_of_one ht enumerates_walkBelow hfree hone)

theorem unhindered_of_isFile (hroot : IsRoot t directory root entries)
    (h : ∀ l ∈ walk root entries, t.isFile l ≠ .error (.pathTooLong l.path)) : Unhindered t name directory walk := by
  intro fault hfault
  cases hfault with
  | homeless hexpand => cases hroot.place.symm.trans (place_eq_error_iff.mpr (.inl hexpand))
  | unresolved hexpand hdestination =>
    cases hroot.place.symm.trans (place_eq_error_iff.mpr (.inr ⟨_, hexpand, hdestination⟩))
  | root hplace hlook =>
    obtain rfl := Except.ok.inj (hroot.place.symm.trans hplace)
    cases hroot.look.symm.trans hlook
  | below hroot' hsplit _ _ hlook =>
    obtain ⟨rfl, rfl⟩ := hroot.eq hroot'
    exact h _ (by simp [hsplit]) (isFile_of_tooLong hlook)

end

/-- The walk of the search, from its end. -/
def walkBackwards : Walk := fun root entries => (walkBelow root entries).reverse

theorem enumerates_walkBackwards : walkBackwards.Enumerates := fun root entries hproper =>
  have hwalk := enumerates_walkBelow root entries hproper
  ⟨List.nodup_reverse.mpr hwalk.nodup, fun l => by rw [walkBackwards, List.mem_reverse, hwalk.mem_iff]⟩

/-- The entries of a directory with one dump, which is hidden, beside a directory with the name of one and two links. -/
def runEntries : Entries := [
  (".old", .directory [("cdl_dump.yaml", .file [])]),
  ("cdl_dump.yaml", .directory [("notes.txt", .file [])]),
  ("gone", .link "nowhere"),
  ("last", .link ".old")]

/-- A tree with that directory, which is the only home directory that is known, and a link that leads to itself. -/
def runTree : Tree where
  top := [("loop", .link "loop"), ("run", .directory runEntries)]
  homes := { own := some "/run/" }

theorem proper_runTree : runTree.Proper := by
  have hold : (Entry.directory [("cdl_dump.yaml", .file [])]).Proper :=
    .directory (by decide +kernel) (by decide) (by simp [Entry.Proper.file])
  have hnotes : (Entry.directory [("notes.txt", .file [])]).Proper :=
    .directory (by decide +kernel) (by decide) (by simp [Entry.Proper.file])
  have hrun : (Entry.directory runEntries).Proper :=
    .directory (by decide +kernel) (by decide) (by simp [runEntries, hold, hnotes, Entry.Proper.link])
  exact .directory (by decide +kernel) (by decide) (by simp [runTree, hrun, Entry.Proper.link])

theorem isRoot_runTree : IsRoot runTree "~" ["run"] runEntries := ⟨by decide +kernel, by rfl⟩

end Postmortem.Files
