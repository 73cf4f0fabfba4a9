import Mathlib.Data.List.Forall2
import Postmortem.Progress.Lookup
set_option autoImplicit false

/-!
# Positions: where the names of a dump stand

The names of command buffers stand five lists deep in a dump, so each has a position of five numbers.  The walk through
the submissions goes by these positions: it meets each that exists once, and in increasing order.  The main statement is
`meets_positions`.
-/

namespace Postmortem.Progress

/-- The numbers of a device, of a queue of it, of a submission there, of an information in that, and of a name there.
Positions are compared number by number. -/
abbrev Position : Type := List Nat

/-- What a dump has at a position. -/
def submittedAt (dump : Dump) : Position → Option Submitted
  | [device, queue, submit, info, name] => do
    let d ← dump.devices[device]?
    let q ← d.queues[queue]?
    let s ← q.submits[submit]?
    let i ← s.infos[info]?
    let n ← i.commandBuffers[name]?
    return ⟨device, q, s, i, n⟩
  | _ => none

/-! ## Numbered parts -/

/-- What the members of a list hold, with the number of the member in front of the position there. -/
def numbered {τ σ : Type} (held : τ → List (Position × σ)) (list : List τ) : List (Position × σ) :=
  list.zipIdx.flatMap fun (x, number) => (held x).map fun (position, y) => (number :: position, y)

section

variable {τ σ υ : Type} {held : τ → List (Position × σ)} {list : List τ}

theorem mem_numbered_iff {position : Position} {y : σ} :
    (position, y) ∈ numbered held list ↔
      ∃ number rest, position = number :: rest ∧ ∃ x, list[number]? = some x ∧ (rest, y) ∈ held x := by
  simp only [numbered, List.mem_flatMap, List.mem_map, Prod.exists, List.mem_zipIdx_iff_getElem?, Prod.mk.injEq]
  constructor
  · rintro ⟨x, number, hx, rest, _, hrest, rfl, rfl⟩
    exact ⟨number, rest, rfl, x, hx, hrest⟩
  · rintro ⟨number, rest, rfl, x, hx, hrest⟩
    exact ⟨x, number, hx, rest, y, hrest, rfl, rfl⟩

theorem pairwise_zipIdx (list : List τ) (start : Nat) : (list.zipIdx start).Pairwise fun a b => a.2 < b.2 := by
  induction list generalizing start with
  | nil => exact .nil
  | cons x rest ih =>
    rw [List.zipIdx_cons, List.pairwise_cons]
    exact ⟨fun later hlater => List.le_snd_of_mem_zipIdx hlater, ih (start + 1)⟩

/-- If the positions in each member increase, so do all of them. -/
theorem pairwise_numbered (h : ∀ x, (held x).Pairwise fun a b => a.1 < b.1) :
    (numbered held list).Pairwise fun a b => a.1 < b.1 := by
  rw [numbered, List.pairwise_flatMap]
  constructor
  · intro part _
    rw [List.pairwise_map]
    exact (h part.1).imp fun hlt => List.Lex.cons hlt
  · refine (pairwise_zipIdx list 0).imp ?_
    intro part part' hlt a ha b hb
    obtain ⟨_, _, rfl⟩ := List.mem_map.mp ha
    obtain ⟨_, _, rfl⟩ := List.mem_map.mp hb
    exact List.Lex.rel hlt

/-- Two walks through the numbered members of a list run in parallel if they do in each member. -/
theorem forall₂_numbered {R : Position × σ → υ → Prop} {visit : τ × Nat → List υ}
    (h : ∀ x number, list[number]? = some x →
      List.Forall₂ (fun part y => R (number :: part.1, part.2) y) (held x) (visit (x, number))) :
    List.Forall₂ R (numbered held list) (list.zipIdx.flatMap visit) := by
  have hsame : List.Forall₂ (fun a b => a = b ∧ list[a.2]? = some a.1) list.zipIdx list.zipIdx :=
    List.forall₂_same.mpr fun _ hmem => ⟨rfl, List.mem_zipIdx_iff_getElem?.mp hmem⟩
  refine List.rel_flatMap hsame ?_
  rintro ⟨x, number⟩ _ ⟨rfl, hx⟩
  exact List.forall₂_map_left_iff.mpr (h x number hx)

/-- The same, if the other walk does not number the members. -/
theorem forall₂_numbered_flatMap {R : Position × σ → υ → Prop} {visit : τ → List υ}
    (h : ∀ x number, list[number]? = some x →
      List.Forall₂ (fun part y => R (number :: part.1, part.2) y) (held x) (visit x)) :
    List.Forall₂ R (numbered held list) (list.flatMap visit) := by
  have hvisit : (list.zipIdx.flatMap fun part => visit part.1) = list.flatMap visit := by
    rw [← List.flatMap_map Prod.fst visit, List.zipIdx_map_fst]
  rw [← hvisit]
  exact forall₂_numbered h

end

/-! ## The names of a dump -/

/-- The names in an information, with their positions in it. -/
def namesOfInfo (info : SubmitInfo) : List (Position × String) := numbered (fun name => [([], name)]) info.commandBuffers

/-- The names in a submission, with their positions in it. -/
def namesOfSubmit (submit : Submit) : List (Position × String) := numbered namesOfInfo submit.infos

/-- The names in a queue, with their positions in it. -/
def namesOfQueue (queue : Queue) : List (Position × String) := numbered namesOfSubmit queue.submits

/-- The names on a device, with their positions there. -/
def namesOfDevice (d : Device) : List (Position × String) := numbered namesOfQueue d.queues

/-- The names in a dump, with their positions. -/
def namesOfDump (dump : Dump) : List (Position × String) := numbered namesOfDevice dump.devices

/-- The positions that a dump has, in increasing order. -/
def positions (dump : Dump) : List Position := (namesOfDump dump).map Prod.fst

theorem pairwise_positions (dump : Dump) : (positions dump).Pairwise (· < ·) := by
  rw [positions, List.pairwise_map]
  refine pairwise_numbered fun d => pairwise_numbered fun queue => pairwise_numbered fun submit =>
    pairwise_numbered fun info => pairwise_numbered fun name => List.pairwise_singleton _ _

/-- What a dump has at a position is found among its names. -/
theorem mem_namesOfDump {dump : Dump} {position : Position} {s : Submitted} (h : submittedAt dump position = some s) :
    (position, s.commandBuffer) ∈ namesOfDump dump := by
  unfold submittedAt at h
  split at h
  · rename_i i j k l m
    simp only [Option.bind_eq_bind, Option.bind_eq_some_iff, Option.pure_def, Option.some.injEq] at h
    obtain ⟨d, hd, queue, hqueue, submit, hsubmit, info, hinfo, name, hname, rfl⟩ := h
    have hinInfo : ([m], name) ∈ namesOfInfo info :=
      mem_numbered_iff.mpr ⟨m, [], rfl, name, hname, List.mem_singleton.mpr rfl⟩
    have hinSubmit : ([l, m], name) ∈ namesOfSubmit submit := mem_numbered_iff.mpr ⟨l, [m], rfl, info, hinfo, hinInfo⟩
    have hinQueue : ([k, l, m], name) ∈ namesOfQueue queue :=
      mem_numbered_iff.mpr ⟨k, [l, m], rfl, submit, hsubmit, hinSubmit⟩
    have hinDevice : ([j, k, l, m], name) ∈ namesOfDevice d :=
      mem_numbered_iff.mpr ⟨j, [k, l, m], rfl, queue, hqueue, hinQueue⟩
    exact mem_numbered_iff.mpr ⟨i, [j, k, l, m], rfl, d, hd, hinDevice⟩
  · cases h

/-- The walk goes by the names of the dump. -/
theorem forall₂_submitted (dump : Dump) :
    List.Forall₂ (fun part s => submittedAt dump part.1 = some s ∧ s.commandBuffer = part.2) (namesOfDump dump)
      (submitted dump) := by
  refine forall₂_numbered fun d device hd => ?_
  refine forall₂_numbered_flatMap fun queue j hqueue => ?_
  refine forall₂_numbered_flatMap fun submit k hsubmit => ?_
  refine forall₂_numbered_flatMap fun info l hinfo => ?_
  rw [List.map_eq_flatMap]
  refine forall₂_numbered_flatMap fun name m hname => ?_
  simp [submittedAt, hd, hqueue, hsubmit, hinfo, hname]

/-- The walk through the submissions meets the positions of a dump: all that exist, each once, in increasing order. -/
structure Meets (dump : Dump) (positions : List Position) : Prop where
  ordered : positions.Pairwise (· < ·)
  complete : ∀ position, position ∈ positions ↔ (submittedAt dump position).isSome
  submitted : (submitted dump).map some = positions.map (submittedAt dump)

theorem meets_positions (dump : Dump) : Meets dump (positions dump) := by
  have hmatch : List.Forall₂ (· = ·) ((submitted dump).map some) ((positions dump).map (submittedAt dump)) := by
    rw [positions, List.map_map, List.forall₂_map_left_iff, List.forall₂_map_right_iff]
    exact (forall₂_submitted dump).flip.imp fun _ _ h => h.1.symm
  have hsubmitted : (submitted dump).map some = (positions dump).map (submittedAt dump) := by
    rwa [List.forall₂_eq_eq_eq] at hmatch
  refine ⟨pairwise_positions dump, fun position => ⟨?_, ?_⟩, hsubmitted⟩
  · intro hmem
    have hfound : submittedAt dump position ∈ (submitted dump).map some := by
      rw [hsubmitted]
      exact List.mem_map_of_mem hmem
    obtain ⟨s, _, hs⟩ := List.mem_map.mp hfound
    exact Option.isSome_iff_exists.mpr ⟨s, hs.symm⟩
  · intro hsome
    obtain ⟨s, hs⟩ := Option.isSome_iff_exists.mp hsome
    exact List.mem_map.mpr ⟨_, mem_namesOfDump hs, rfl⟩

end Postmortem.Progress
