import Mathlib.Data.List.Nodup
import Postmortem.Proofs.Independence
import Postmortem.Proofs.PathReading
set_option autoImplicit false

/-!
# Places: no two of them under one path

What is reported about a document is reported under the path of a place that the reader comes to.  If no map there gives
a key twice, except the devices of a dump, the path tells the place.  From a path to a place it goes in two steps: the
path tells the location, because the keys of the format are well named and the free keys of settings have nothing behind
them (`Located.eq_of_pathOf_eq`); and the location tells the way, because an entry is told apart by its key and, for a
device, by its number (`ClearWay.eq_of_location`).  The main statement is `paths_identify_places`.
-/

namespace Postmortem

open Postmortem.Node

/-! ## From locations to ways -/

section

variable {α : Type} {graph : Graph α}

theorem Form.eq_of_stepsTo_append {form : Form} {name name' : String} {earlier earlier' : Nat} {rest rest' : List Step}
    (h : form.stepsTo name earlier ++ rest = form.stepsTo name' earlier' ++ rest') :
    name = name' ∧ rest = rest' ∧ (form = .entity .dump ∧ name = "Device" → earlier = earlier') := by
  unfold Form.stepsTo at h
  split at h <;> split at h <;> simp_all

theorem Form.stepsTo_append_ne_nil (form : Form) (name : String) (earlier : Nat) (rest : List Step) :
    form.stepsTo name earlier ++ rest ≠ [] := by
  unfold Form.stepsTo
  split <;> simp

/-- What stands before an entry has a value less under its key than what stands up to it. -/
theorem eq_nil_of_valuesUnder {key child : α} {name : String} {between back tail : List (α × α)}
    (hkey : graph key = .scalar name) (hback : (key, child) :: back = between ++ tail)
    (hnone : (valuesUnder graph name between).length = 0) : between = [] := by
  cases between with
  | nil => rfl
  | cons entry more =>
    obtain ⟨rfl, _⟩ := List.cons.inj hback
    rw [valuesUnder_cons_self hkey] at hnone
    exact absurd hnone (by simp)

/-- An entry is told apart by its key and by how many values are under it before. -/
theorem eq_of_length_valuesUnder {key key' child child' : α} {name : String} {front front' back back' : List (α × α)}
    (hkey : graph key = .scalar name) (hkey' : graph key' = .scalar name)
    (hentries : front ++ (key, child) :: back = front' ++ (key', child') :: back')
    (hearlier : (valuesUnder graph name front).length = (valuesUnder graph name front').length) : front = front' := by
  rcases List.append_eq_append_iff.mp hentries with ⟨between, rfl, hback⟩ | ⟨between, rfl, hback⟩
  · rw [valuesUnder_append, List.length_append] at hearlier
    rw [eq_nil_of_valuesUnder hkey hback (by omega), List.append_nil]
  · rw [valuesUnder_append, List.length_append] at hearlier
    rw [eq_nil_of_valuesUnder hkey' hback (by omega), List.append_nil]

variable (graph)

/-- No map of an entity that the reader comes to gives a key twice, except the devices of a dump. -/
def KeysOnce (form : Form) (node : α) : Prop :=
  ∀ address location e place entries key, ClearWay graph readable form node address location (.entity e) place →
    graph place = .map entries → ¬(e = .dump ∧ key = "Device") → (keysOf graph entries).count key ≤ 1

variable {graph} {form inner target target' : Form} {node child place place' : α} {address address' : Address}
  {location : List Step}

theorem KeysOnce.of_clearWay (h : KeysOnce graph form node)
    (hway : ClearWay graph readable form node address location inner child) : KeysOnce graph inner child :=
  fun _ _ e other entries key hmore => h _ _ e other entries key (hway.trans hmore)

/-- Only a device can have values under its key before it. -/
theorem KeysOnce.valuesUnder_eq_nil {key : α} {name : String} {front back : List (α × α)} (h : KeysOnce graph form node)
    (shape : graph node = .map (front ++ (key, child) :: back)) (isKey : graph key = .scalar name)
    (known : form.under name = some inner) (new : form = .settings → name ∉ keysOf graph front)
    (hdevice : ¬(form = .entity .dump ∧ name = "Device")) : (valuesUnder graph name front).length = 0 := by
  rw [length_valuesUnder]
  rcases Form.under_cases known with ⟨hsettings, _⟩ | ⟨e, rfl, _⟩
  · exact List.count_eq_zero.mpr (new hsettings)
  · have honce := h [] [] e node _ name (.here _ _) shape (by simpa using hdevice)
    rw [keysOf_append, keysOf_cons isKey, List.count_append, List.count_cons_self] at honce
    omega

/-- A location tells the way. -/
theorem ClearWay.eq_of_location (hkeys : KeysOnce graph form node)
    (h : ClearWay graph readable form node address location target place)
    (h' : ClearWay graph readable form node address' location target' place') :
    address = address' ∧ target = target' ∧ place = place' := by
  induction h generalizing address' with
  | here form node =>
    generalize hnil : ([] : List Step) = steps at h'
    cases h' with
    | here => exact ⟨rfl, rfl, rfl⟩
    | entry => exact absurd hnil.symm (Form.stepsTo_append_ne_nil _ _ _ _)
    | element => cases hnil
  | @entry form inner target node key child place name front back address location shape before isKey known new rest
      ih =>
    generalize hsteps : form.stepsTo name (valuesUnder graph name front).length ++ location = steps at h'
    cases h' with
    | here => exact absurd hsteps (Form.stepsTo_append_ne_nil _ _ _ _)
    | @entry _ _ _ _ _ _ _ _ front' _ _ _ shape' before' isKey' known' new' rest' =>
      obtain ⟨rfl, rfl, hnumber⟩ := Form.eq_of_stepsTo_append hsteps
      have hentries := Shape.map.inj (shape.symm.trans shape')
      have hearlier : (valuesUnder graph name front).length = (valuesUnder graph name front').length := by
        by_cases hdevice : form = .entity .dump ∧ name = "Device"
        · exact hnumber hdevice
        · rw [hkeys.valuesUnder_eq_nil shape isKey known new hdevice,
            hkeys.valuesUnder_eq_nil shape' isKey' known' new' hdevice]
      obtain rfl := eq_of_length_valuesUnder isKey isKey' hentries hearlier
      obtain ⟨hentry, _⟩ := List.cons.inj (List.append_cancel_left hentries)
      obtain ⟨rfl, rfl⟩ := Prod.mk.inj hentry
      obtain rfl := Option.some.inj (known.symm.trans known')
      have hway := ClearWay.entry shape before isKey known new (.here inner child)
      obtain ⟨rfl, rfl, rfl⟩ := ih (hkeys.of_clearWay hway) rest'
      exact ⟨rfl, rfl, rfl⟩
    | element => exact absurd known (by simp [Form.under])
  | @element item target node child place front back address location shape before rest ih =>
    generalize hsteps : Step.index front.length :: location = steps at h'
    cases h' with
    | here => cases hsteps
    | entry shape' before' isKey' known' => exact absurd known' (by simp [Form.under])
    | element shape' before' rest' =>
      obtain ⟨hnumber, rfl⟩ := List.cons.inj hsteps
      obtain ⟨rfl, hback⟩ := List.append_inj (Shape.sequence.inj (shape.symm.trans shape')) (Step.index.inj hnumber)
      obtain ⟨rfl, _⟩ := List.cons.inj hback
      have hway := ClearWay.element shape before (.here item child)
      obtain ⟨rfl, rfl, rfl⟩ := ih (hkeys.of_clearWay hway) rest'
      exact ⟨rfl, rfl, rfl⟩

/-- In a document that conforms, every way is clear. -/
theorem Leads.clearWay {limit : Option Nat} (h : Leads graph form node address location target place)
    (hnode : Conforms graph limit form node) : ClearWay graph limit form node address location target place := by
  induction h with
  | here form node => exact .here form node
  | @entry form inner target node key child place name front back address location shape isKey known rest ih =>
    obtain ⟨entries, hshape, hentries, _⟩ := (conforms_map_iff (Form.kind?_of_under known)).mp hnode
    obtain rfl := Shape.map.inj (shape.symm.trans hshape)
    rw [List.append_cons] at hentries
    obtain ⟨before, _, _, hkey, hknown, new, hchild⟩ := entriesConform_concat_iff.mp hentries.of_append
    obtain rfl := Shape.scalar.inj (isKey.symm.trans hkey)
    obtain rfl := Option.some.inj (known.symm.trans hknown)
    exact .entry shape before isKey known new (ih hchild)
  | element shape rest ih =>
    obtain ⟨items, hshape, hitems⟩ := conforms_sequence_iff.mp hnode
    obtain rfl := Shape.sequence.inj (shape.symm.trans hshape)
    exact .element shape (fun other hother => hitems other (List.mem_append_left _ hother)) (ih (hitems _ (by simp)))

end

/-! ## From paths to locations -/

/-- Whether a form has settings below it or is that of settings. -/
def Form.hasSettings : Form → Bool
  | .settings => true
  | .sequence item => item.hasSettings
  | .entity e => e == .dump
  | _ => false

theorem Entity.isPathName_of_row (e : Entity) : ∀ row ∈ e.format, IsPathName row.1 := by
  cases e <;> decide +kernel

/-- Settings stand nowhere but under their key in a dump. -/
theorem Entity.settings_of_row (e : Entity) : ∀ row ∈ e.format,
    row.2.hasSettings = false ∨ e = .dump ∧ row = ("settings", .settings) := by
  cases e <;> decide

/-- A location in a dump: its keys are well named, or its last one is that of a setting. -/
inductive Located : List Step → Prop
  | named {location : List Step} (wellNamed : WellNamed location)
      (settings : ∀ rest, location = .key "settings" :: rest → rest = []) : Located location
  | setting (name : String) : Located [.key "settings", .key name]

theorem wellNamed_stepsTo {name : String} (h : IsPathName name) (form : Form) (earlier : Nat) :
    WellNamed (form.stepsTo name earlier) := by
  unfold Form.stepsTo
  split
  · exact wellNamed_cons_iff.mpr ⟨h, wellNamed_cons_iff.mpr ⟨trivial, wellNamed_nil⟩⟩
  · exact wellNamed_cons_iff.mpr ⟨h, wellNamed_nil⟩

section

variable {α : Type} {graph : Graph α} {form target : Form} {node place : α} {address : Address} {location : List Step}

/-- Where there are no settings, all keys are those of the format. -/
theorem Leads.wellNamed (h : Leads graph form node address location target place) (hform : form.hasSettings = false) :
    WellNamed location := by
  induction h with
  | here form node => exact wellNamed_nil
  | entry shape isKey known rest ih =>
    rcases Form.under_cases known with ⟨rfl, _⟩ | ⟨e, rfl, hlookup⟩
    · exact absurd hform (by simp [Form.hasSettings])
    · have hrow := Entity.mem_format hlookup
      obtain hinner | ⟨rfl, _⟩ := e.settings_of_row _ hrow
      · exact wellNamed_append_iff.mpr ⟨wellNamed_stepsTo (e.isPathName_of_row _ hrow) _ _, ih hinner⟩
      · exact absurd hform (by decide)
  | element shape rest ih => exact wellNamed_cons_iff.mpr ⟨trivial, ih hform⟩

/-- Settings have texts below them, and nothing below those. -/
theorem Leads.of_settings (h : Leads graph .settings node address location target place) :
    location = [] ∨ ∃ name, location = [.key name] := by
  cases h with
  | here => exact Or.inl rfl
  | entry shape isKey known rest =>
    obtain rfl := Option.some.inj known
    cases rest with
    | here => exact Or.inr ⟨_, rfl⟩
    | entry shape isKey known rest => exact absurd known (by simp [Form.under])

theorem Leads.located (h : Leads graph (.entity .dump) node address location target place) : Located location := by
  cases h with
  | here => exact .named wellNamed_nil (by simp)
  | @entry _ inner _ _ _ _ _ name front _ _ more shape isKey known rest =>
    have hname := Entity.dump.isPathName_of_row _ (Entity.mem_format known)
    obtain hinner | ⟨_, hrow⟩ := Entity.dump.settings_of_row _ (Entity.mem_format known)
    · refine .named (wellNamed_append_iff.mpr ⟨wellNamed_stepsTo hname _ _, rest.wellNamed hinner⟩) ?_
      intro others hothers
      -- Another form would stand under the key of the settings.
      have hsettings : (Form.entity .dump).stepsTo "settings" 0 ++ others = .key "settings" :: others := by
        simp [Form.stepsTo]
      obtain ⟨rfl, _⟩ := Form.eq_of_stepsTo_append (hothers.trans hsettings.symm)
      obtain rfl : Form.settings = inner := Option.some.inj known
      exact absurd hinner (by decide)
    · obtain ⟨rfl, rfl⟩ := Prod.mk.inj hrow
      have hsteps : (Form.entity .dump).stepsTo "settings" (valuesUnder graph "settings" front).length =
          [.key "settings"] := by simp [Form.stepsTo]
      rw [hsteps]
      rcases rest.of_settings with rfl | ⟨name, rfl⟩
      · refine .named (by decide) ?_
        intro others hothers
        exact (List.cons.inj hothers).2.symm
      · exact .setting name

end

/-- The path of a setting is the path of no location with well named keys in a dump. -/
theorem pathOf_setting_ne {location : List Step} (hnamed : WellNamed location)
    (hsettings : ∀ rest, location = .key "settings" :: rest → rest = []) (name : String) :
    pathOf [.key "settings", .key name] ≠ pathOf location := by
  have hname : IsPathName "settings" := by decide
  by_cases hkey : ∃ name rest, location = .key name :: rest
  · obtain ⟨name', rest, rfl⟩ := hkey
    intro h
    obtain ⟨rfl, hbehind⟩ := name_inj hname (wellNamed_cons_iff.mp hnamed).1 h
    rw [hsettings rest rfl, shownBehind_cons] at hbehind
    exact shownStep_append_ne_empty _ _ hbehind
  · exact pathOf_key_ne hname _ (by simpa using hkey)

/-- A path tells the location in a dump. -/
theorem Located.eq_of_pathOf_eq {location location' : List Step} (h : Located location) (h' : Located location')
    (heq : pathOf location = pathOf location') : location = location' := by
  cases h with
  | named hnamed hsettings =>
    cases h' with
    | named hnamed' _ => exact Postmortem.eq_of_pathOf_eq hnamed hnamed' heq
    | setting name' => exact absurd heq.symm (pathOf_setting_ne hnamed hsettings name')
  | setting name =>
    cases h' with
    | named hnamed' hsettings' => exact absurd heq (pathOf_setting_ne hnamed' hsettings' name)
    | setting name' =>
      have hname : IsPathName "settings" := by decide
      -- The name of a setting may have marks in it, but it is all that is left of the path.
      obtain ⟨_, hbehind⟩ := name_inj hname hname heq
      have hlists := congrArg String.toList hbehind
      simp only [shownBehind_cons, String.toList_append, toList_shownStep_key, List.cons_append] at hlists
      have hrest := List.append_cancel_right (List.cons.inj hlists).2
      rw [String.toList_inj.mp hrest]

/-! ## Places -/

/-- A place of a document: the way to it, the steps under which it is known, the form that is asked for there, and the
node that stands there, if the document is not empty. -/
structure Place (α : Type) where
  way : Address
  location : List Step
  form : Form
  node : Option α

/-- The path under which a place is reported. -/
def Place.path {α : Type} (p : Place α) : String := render "" p.location

section

variable {α : Type} (graph : Graph α)

/-- The reader comes to a place: to where the root is or should be, and from there along each way that is clear. -/
inductive ComesTo : Option α → Place α → Prop
  | nothing : ComesTo none ⟨[], [], .entity .dump, none⟩
  | node {root place : α} {form : Form} {address : Address} {location : List Step}
      (way : ClearWay graph readable (.entity .dump) root address location form place) :
      ComesTo (some root) ⟨address, location, form, some place⟩

/-- A place is refused for a cause of its own: a document should not be empty, and a node may be at fault. -/
def Place.Refused (p : Place α) (cause : Cause) : Prop :=
  match p.node with
  | none => cause = .wrongShape (.entityMap .dump) .nothing
  | some node => ∃ stop, OwnFault graph readable p.form node cause stop

/-- The place of the value of an unread entry. -/
def Occurrence.valuePlace (o : Occurrence α) : Place α :=
  ⟨o.way, o.place, .anything, (pairsOf graph o.map)[o.number]?.map Prod.snd⟩

/-- What is reported about a document is reported under paths that tell its places apart. -/
structure PathsIdentify (config : Config) (root : Option α) : Prop where
  /-- different places that the reader comes to have different paths -/
  distinct : ∀ p q, ComesTo graph root p → ComesTo graph root q → p ≠ q → p.path ≠ q.path
  /-- a fault is reported under the path of the place that is refused, and of no other -/
  fault : ∀ fault, Reader.ofGraph config graph root = .error fault →
    ∃ cause p, fault = .node cause p.path ∧ ComesTo graph root p ∧ p.Refused graph cause ∧
      ∀ q, ComesTo graph root q → q.path = p.path → q = p
  /-- each warning is about a place of its own, under a path of its own -/
  warnings : ∀ file, Reader.ofGraph config graph root = .ok file →
    ∃ places : List (Place α),
      List.Forall₂ (fun p line => ∃ e key, line = ignoredLine e key p.path) places file.warnings ∧
        (∀ p ∈ places, ComesTo graph root p) ∧ places.Nodup ∧ (places.map Place.path).Nodup

variable {graph} {root : Option α} {p q : Place α}

/-- The path of a place tells it among all places that the reader comes to. -/
theorem ComesTo.eq_of_path_eq (hkeys : ∀ node ∈ root, KeysOnce graph (.entity .dump) node) (hp : ComesTo graph root p)
    (hq : ComesTo graph root q) (hpath : p.path = q.path) : p = q := by
  cases hp with
  | nothing =>
    cases hq
    rfl
  | node way =>
    cases hq with
    | node way' =>
      rw [Place.path, Place.path, way.leads.render_eq, way'.leads.render_eq] at hpath
      obtain rfl := way.leads.located.eq_of_pathOf_eq way'.leads.located hpath
      obtain ⟨rfl, rfl, rfl⟩ := way.eq_of_location (hkeys _ rfl) way'
      rfl

/-- A fault is that of a place that the reader comes to. -/
theorem exists_refused_of_ofGraph {config : Config} {fault : Fault} (h : Reader.ofGraph config graph root = .error fault) :
    ∃ cause p, fault = .node cause p.path ∧ ComesTo graph root p ∧ p.Refused graph cause := by
  cases root with
  | none =>
    obtain ⟨refusal, hrefused, rfl⟩ := Reader.ofGraph_eq_error_iff.mp h
    obtain ⟨_, rfl⟩ | ⟨_, _, hroot, _⟩ := readDump_eq_error_iff.mp hrefused
    · exact ⟨_, _, rfl, .nothing, rfl⟩
    · cases hroot
  | some root =>
    obtain ⟨cause, address, location, hviolation, rfl⟩ := ofGraph_eq_error_iff_firstViolation.mp h
    obtain ⟨form, place, stop, hway, hown⟩ := firstViolation_iff_clearWay.mp hviolation
    refine ⟨cause, ⟨address, location, form, some place⟩, ?_, .node hway, stop, hown⟩
    rw [Place.path, hway.leads.render_eq]

/-- In a document that conforms, the reader comes to the value of each unread entry. -/
theorem Unread.comesTo {node : α} {o : Occurrence α} (h : Unread graph (.entity .dump) node o)
    (hnode : Conforms graph readable (.entity .dump) node) : ComesTo graph (some node) (o.valuePlace graph) := by
  obtain ⟨front, key, child, back, shape, isKey, hnumber⟩ := h.entry
  have hentry : (pairsOf graph o.map)[o.number]? = some (key, child) := by
    rw [pairsOf, shape, ← hnumber]
    simp
  rw [Occurrence.valuePlace, hentry]
  exact .node ((h.leads_child shape isKey hnumber).clearWay hnode)

theorem Unread.line_eq_ignoredLine {node : α} {o : Occurrence α} (h : Unread graph (.entity .dump) node o) :
    o.line = ignoredLine o.entity o.key (o.valuePlace graph).path := by
  obtain ⟨_, hleads⟩ := h.leads_value
  rw [Occurrence.line, ignoredLine, Place.path, Occurrence.valuePlace, hleads.render_eq]

/-- The values of unread entries are at different places. -/
theorem nodup_valuePlaces (node : α) :
    ((unreadIn graph (.entity .dump) node).map (Occurrence.valuePlace graph)).Nodup := by
  rw [List.Nodup, List.pairwise_map]
  refine (pairwise_unreadIn (.entity .dump) node).imp ?_
  intro o o' hbefore heq
  exact hbefore.ne (congrArg Place.way heq)

/-- The warnings are about different places that the reader comes to. -/
theorem exists_places_of_ofGraph {config : Config} {file : DumpFile} (h : Reader.ofGraph config graph root = .ok file) :
    ∃ places : List (Place α),
      List.Forall₂ (fun p line => ∃ e key, line = ignoredLine e key p.path) places file.warnings ∧
        (∀ p ∈ places, ComesTo graph root p) ∧ places.Nodup := by
  obtain ⟨content, remarks, hread, _⟩ := Reader.ofGraph_eq_ok_iff.mp h
  obtain ⟨node, rfl, hconforms⟩ := succeeds_readDump_iff.mp ⟨content, remarks, hread⟩
  rw [warnings_eq_linesOf h, Config.linesOf]
  by_cases hrecorded : config.recordIgnored = true
  · rw [if_pos hrecorded]
    refine ⟨(unreadIn graph (.entity .dump) node).map (Occurrence.valuePlace graph), ?_, ?_, nodup_valuePlaces node⟩
    · rw [List.forall₂_map_left_iff, List.forall₂_map_right_iff, List.forall₂_same]
      intro o ho
      exact ⟨o.entity, o.key, (mem_unreadIn_iff.mp ho).line_eq_ignoredLine⟩
    · intro p hp
      obtain ⟨o, ho, rfl⟩ := List.mem_map.mp hp
      exact (mem_unreadIn_iff.mp ho).comesTo hconforms
  · rw [if_neg hrecorded]
    exact ⟨[], .nil, by simp, List.nodup_nil⟩

/-- In a document whose maps give no key twice, except the devices of a dump, paths tell places apart. -/
theorem pathsIdentify_of_keysOnce (config : Config) (hkeys : ∀ node ∈ root, KeysOnce graph (.entity .dump) node) :
    PathsIdentify graph config root := by
  refine ⟨?_, ?_, ?_⟩
  · intro p q hp hq hne hpath
    exact hne (hp.eq_of_path_eq hkeys hq hpath)
  · intro fault h
    obtain ⟨cause, p, hfault, hp, hrefused⟩ := exists_refused_of_ofGraph h
    exact ⟨cause, p, hfault, hp, hrefused, fun q hq hpath => hq.eq_of_path_eq hkeys hp hpath⟩
  · intro file h
    obtain ⟨places, hlines, hplaces, hnodup⟩ := exists_places_of_ofGraph h
    refine ⟨places, hlines, hplaces, hnodup, hnodup.map_on ?_⟩
    intro p hp q hq hpath
    exact (hplaces p hp).eq_of_path_eq hkeys (hplaces q hq) hpath

end

/-! ## What paths tell -/

/-- The path of a location is what the last site is given when its steps are followed from a site with the empty path,
and there is a document in which they can be followed.  Different locations have different paths, if their keys are
well named.  So in a document whose maps give no key twice, except the devices of a dump, no two places are reported
under one path. -/
theorem paths_identify_places {α : Type} (config : Config) (graph : Graph α) (root : Option α) :
    (∀ node steps target, Follows graph ⟨node, ""⟩ steps target → target.path = render "" steps) ∧
      (∀ steps, ∃ target, Follows Tree.shape ⟨some (treeAlong steps), ""⟩ steps target) ∧
      (∀ steps steps', WellNamed steps → WellNamed steps' → steps ≠ steps' → render "" steps ≠ render "" steps') ∧
      ((∀ node ∈ root, KeysOnce graph (.entity .dump) node) → PathsIdentify graph config root) := by
  refine ⟨?_, exists_follows "", ?_, pathsIdentify_of_keysOnce config⟩
  · exact fun node steps target hfollows => hfollows.path_eq
  · exact fun steps steps' hnamed hnamed' hne hpath => hne (eq_of_render_eq hnamed hnamed' hpath)

/-- In a list of nodes that has all that the format leads to, the maps can be looked through for keys given twice. -/
theorem keysOnce_of_closed {α : Type} [DecidableEq α] {graph : Graph α} {reached : List (Form × α)} {form : Form}
    {node : α} (hclosed : Closed graph reached) (hnode : (form, node) ∈ reached)
    (honce : ∀ pair ∈ reached, pair.1.kind? = some .map → ∀ key ∈ keysOf graph (pairsOf graph pair.2),
      pair.1 = .entity .dump ∧ key = "Device" ∨ (keysOf graph (pairsOf graph pair.2)).count key ≤ 1) :
    KeysOnce graph form node := by
  intro address location e place entries key hway hplace hdevice
  have hentries : pairsOf graph place = entries := by rw [pairsOf, hplace]
  by_cases hkey : key ∈ keysOf graph entries
  · have hpair := honce (.entity e, place) (hclosed.mem_of_leads hway.leads hnode) rfl key (hentries ▸ hkey)
    rw [hentries] at hpair
    exact hpair.resolve_left fun h => hdevice ⟨Form.entity.inj h.1, h.2⟩
  · rw [List.count_eq_zero.mpr hkey]
    exact Nat.zero_le 1

/-- A document with a setting that has the path of a queue as its name, and two devices that list one queue three times
in all.  The queue has flags and may have an index. -/
def sharedQueue (index : List (Nat × Nat)) : Graph Nat
  | 0 => .map [(1, 2), (3, 4), (3, 5)]
  | 1 => .scalar "settings"
  | 2 => .map [(6, 7), (8, 7)]
  | 3 => .scalar "Device"
  | 4 => .map [(9, 10)]
  | 5 => .map [(9, 11)]
  | 6 => .scalar "Device[0].Queues[0]"
  | 7 => .scalar "on"
  | 8 => .scalar ""
  | 9 => .scalar "Queues"
  | 10 => .sequence [12, 12]
  | 11 => .sequence [12]
  | 12 => .map ((13, 0) :: index)
  | 13 => .scalar "flags"
  | _ => .scalar "index"

/-- Its nodes with the forms that they have to be of. -/
def sharedQueueNodes : List (Form × Nat) := [(.entity .dump, 0), (.settings, 2), (.text, 7), (.entity .device, 4),
  (.entity .device, 5), (.sequence (.entity .queue), 10), (.sequence (.entity .queue), 11), (.entity .queue, 12),
  (.anything, 0), (.uint .w32, 7)]

/-- The flags of the queue are reported under three paths, and a wrong index under the first of them; numbers in a row
are not taken for one number. -/
theorem paths_identify_places_sharedQueue :
    render "" [.key "Device", .index 1, .index 1] ≠ render "" [.key "Device", .index 11] ∧
      KeysOnce (sharedQueue []) (.entity .dump) 0 ∧ PathsIdentify (sharedQueue []) {} (some 0) ∧
      Reader.ofGraph {} (sharedQueue []) (some 0) = .ok {
        content := {
          settings := [("Device[0].Queues[0]", "on"), ("", "on")]
          devices := [{ queues := [{}, {}] }, { queues := [{}] }] }
        warnings := [
          "Ignored Queue key 'flags' at Device[0].Queues[0].flags",
          "Ignored Queue key 'flags' at Device[0].Queues[1].flags",
          "Ignored Queue key 'flags' at Device[1].Queues[0].flags"] } ∧
      KeysOnce (sharedQueue [(14, 7)]) (.entity .dump) 0 ∧ PathsIdentify (sharedQueue [(14, 7)]) {} (some 0) ∧
      Reader.ofGraph {} (sharedQueue [(14, 7)]) (some 0) =
        .error (.node (.badScalar "on" (.uint .w32)) "Device[0].Queues[0].index") := by
  have honce : KeysOnce (sharedQueue []) (.entity .dump) 0 :=
    keysOnce_of_closed (by decide : Closed _ sharedQueueNodes) (by decide) (by decide)
  have honce' : KeysOnce (sharedQueue [(14, 7)]) (.entity .dump) 0 :=
    keysOnce_of_closed (by decide : Closed _ sharedQueueNodes) (by decide) (by decide)
  obtain ⟨_, _, hsteps, hidentify⟩ := paths_identify_places {} (sharedQueue []) (some 0)
  obtain ⟨_, _, _, hidentify'⟩ := paths_identify_places {} (sharedQueue [(14, 7)]) (some 0)
  refine ⟨hsteps _ _ (by decide) (by decide) (by decide), honce, hidentify ?_, by decide +kernel, honce', hidentify' ?_,
    by decide +kernel⟩
  · intro node hnode
    obtain rfl := Option.some.inj hnode
    exact honce
  · intro node hnode
    obtain rfl := Option.some.inj hnode
    exact honce'

end Postmortem
