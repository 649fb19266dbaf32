import WebhookRelay.Config.Loading
import WebhookRelay.Proofs.Overrides

/-!
# The order of the variables

Overrides are sorted by their paths, and the sort keeps those of one path in the order of their
variables.  Several names give one path: they may differ in the case of their letters and in
underscores that separate nothing.  So the values at a path stand in the order in which the
environment happens to list the variables, and the overrides do not depend on that order exactly
if no path is given two different values.
-/

set_option autoImplicit false

namespace WebhookRelay

namespace Overlay

theorem pathAtMost_antisymm {path other : List String} (first : pathAtMost path other = true)
    (second : pathAtMost other path = true) : path = other := by
  induction path generalizing other with
  | nil =>
      cases other with
      | nil => rfl
      | cons name other => cases second
  | cons name path ih =>
      cases other with
      | nil => cases first
      | cons start other =>
          rw [pathAtMost_cons] at first second
          rcases first with before | ⟨rfl, first⟩
          · rcases second with after | ⟨rfl, _⟩
            · exact absurd (String.lt_trans before after) (String.lt_irrefl name)
            · exact absurd before (String.lt_irrefl start)
          · rcases second with after | ⟨_, second⟩
            · exact absurd after (String.lt_irrefl name)
            · rw [ih first second]

def valuesAt (path : List String) (changes : List Override) : List Json :=
  (changes.filter (·.path = path)).map Override.value

section Environment

variable {mark : String} {env other : List (String × String)} {path : List String}

/-- Sorting by paths keeps the overrides of one path in their order. -/
theorem filter_overrides (mark : String) (env : List (String × String)) (path : List String) :
    (overrides mark env).filter (·.path = path) =
      (env.filterMap (override? mark)).filter (·.path = path) := by
  have sorted : ((env.filterMap (override? mark)).filter (·.path = path)).Pairwise
      fun early late => pathAtMost early.path late.path = true := by
    refine List.pairwise_of_forall_mem_list fun early isEarly late isLate => ?_
    have early : early.path = path := by simpa using (List.mem_filter.mp isEarly).2
    have late : late.path = path := by simpa using (List.mem_filter.mp isLate).2
    rw [early, late]
    simpa using pathAtMost_total path path
  have kept := List.sublist_mergeSort
    (fun low middle high => pathAtMost_trans low.path middle.path high.path)
    (fun change other => pathAtMost_total change.path other.path) sorted List.filter_sublist
  have again := kept.filter (·.path = path)
  rw [List.filter_filter] at again
  simp only [Bool.and_self] at again
  refine (again.eq_of_length ?_).symm
  exact (((List.mergeSort_perm _ _).filter _).length_eq).symm

theorem valuesAt_overrides (mark : String) (env : List (String × String)) (path : List String) :
    valuesAt path (overrides mark env) = valuesAt path (env.filterMap (override? mark)) := by
  rw [valuesAt, valuesAt, filter_overrides]

def Agrees (mark : String) (env : List (String × String)) : Prop :=
  ∀ one ∈ env, ∀ other ∈ env, ∀ path, path? mark one.1 = some path →
    path? mark other.1 = some path → scalar one.2 = scalar other.2

theorem Agrees.eq_of_path (agrees : Agrees mark env) {change later : Override}
    (member : change ∈ overrides mark env) (isLater : later ∈ overrides mark env)
    (same : change.path = later.path) : change = later := by
  obtain ⟨one, isOne, there, valued⟩ := mem_overrides.mp member
  obtain ⟨two, isTwo, also, given⟩ := mem_overrides.mp isLater
  have alike := agrees one isOne two isTwo later.path (same ▸ there) also
  exact congrArg₂ Override.mk same (valued.trans (alike.trans given.symm))

theorem overrides_perm (reordered : other.Perm env) :
    (overrides mark other).Perm (overrides mark env) :=
  (List.mergeSort_perm _ _).trans
    ((reordered.filterMap (override? mark)).trans (List.mergeSort_perm _ _).symm)

theorem Agrees.overrides_eq (agrees : Agrees mark env) (reordered : other.Perm env) :
    overrides mark other = overrides mark env := by
  have same : (overrides mark other).Perm (overrides mark env) := overrides_perm reordered
  refine same.eq_of_pairwise ?_ (ordered_overrides mark other) (ordered_overrides mark env)
  intro change later isChange isLater atMost atLeast
  exact agrees.eq_of_path (same.mem_iff.mp isChange) isLater
    (pathAtMost_antisymm atMost atLeast)

/-- Variables of one path set their values there in the order in which they are listed. -/
theorem overrides_of_one_path (all : ∀ variable_ ∈ env, path? mark variable_.1 = some path) :
    overrides mark env = env.map fun variable_ => ⟨path, scalar variable_.2⟩ := by
  have found : env.filterMap (override? mark) =
      env.map fun variable_ => ⟨path, scalar variable_.2⟩ := by
    rw [← List.filterMap_eq_map]
    refine List.filterMap_congr fun variable_ member => ?_
    exact override?_eq_some.mpr ⟨all variable_ member, rfl⟩
  rw [overrides, found]
  apply List.mergeSort_of_pairwise
  rw [List.pairwise_map]
  refine List.pairwise_of_forall_mem_list fun _ _ _ _ => ?_
  simpa using pathAtMost_total path path

/-- Two variables of one path can stand first in either order, and the first one sets the first
value there. -/
theorem head?_valuesAt {one : String × String} (there : path? mark one.1 = some path)
    (rest : List (String × String)) :
    (valuesAt path (overrides mark (one :: rest))).head? = some (scalar one.2) := by
  have change : override? mark one = some ⟨path, scalar one.2⟩ :=
    override?_eq_some.mpr ⟨there, rfl⟩
  rw [valuesAt_overrides, List.filterMap_cons_some change, valuesAt]
  simp

theorem agrees_of_overrides_eq
    (same : ∀ other, other.Perm env → overrides mark other = overrides mark env) :
    Agrees mark env := by
  intro one isOne two isTwo path there also
  by_cases equal : one = two
  · rw [equal]
  · obtain ⟨rest, reordered⟩ : ∃ rest, (one :: two :: rest).Perm env := by
      have remains : two ∈ env.erase one :=
        (List.mem_erase_of_ne (Ne.symm equal)).mpr isTwo
      exact ⟨(env.erase one).erase two, (((List.perm_cons_erase remains).cons one).symm.trans
        (List.perm_cons_erase isOne).symm)⟩
    have swapped : (two :: one :: rest).Perm env := (List.Perm.swap one two rest).trans reordered
    have first := head?_valuesAt there (two :: rest)
    have second := head?_valuesAt also (one :: rest)
    rw [same _ reordered] at first
    rw [same _ swapped] at second
    exact Option.some.inj (first.symm.trans second)

end Environment

end Overlay

/-- The overrides of an environment are the same for every order of its variables exactly if no
path is given two different values.  Then the tree that they make of another one, and the
settings that are loaded, are also the same for every order. -/
theorem overrides_ignore_order_iff_paths_agree (mark : String) (env : List (String × String)) :
    ((∀ other, other.Perm env → Overlay.overrides mark other = Overlay.overrides mark env) ↔
      Overlay.Agrees mark env) ∧
    (Overlay.Agrees mark env → ∀ other, other.Perm env → ∀ tree,
      Overlay.overlaid mark other tree = Overlay.overlaid mark env tree) ∧
    (Overlay.Agrees Overlay.defaultMark env → ∀ other, other.Perm env → ∀ files path,
      Settings.load files path other = Settings.load files path env) := by
  refine ⟨⟨Overlay.agrees_of_overrides_eq, fun agrees other => agrees.overrides_eq⟩, ?_, ?_⟩
  · intro agrees other reordered tree
    rw [Overlay.overlaid, agrees.overrides_eq reordered, Overlay.overlaid]
  · intro agrees other reordered files path
    unfold Settings.load
    rw [agrees.overrides_eq reordered]

namespace Sample

/-- Two names of one path with values that are written differently and are the same. -/
def sameSizes : List (String × String) :=
  [("ORDERHOOK__QUEUE__BATCH_SIZE", "20"), ("HOME", "/"),
    ("ORDERHOOK__queue____batch_size", " 20 ")]

theorem agreeing_variables_may_be_reordered :
    Overlay.Agrees Overlay.defaultMark sameSizes ∧ sameSizes.reverse.Perm sameSizes ∧
      Overlay.overrides Overlay.defaultMark sameSizes.reverse =
        Overlay.overrides Overlay.defaultMark sameSizes ∧
      ∀ files path, Settings.load files path sameSizes.reverse =
        Settings.load files path sameSizes := by
  have twenty : ∀ variable_ ∈ sameSizes, ∀ path,
      Overlay.path? Overlay.defaultMark variable_.1 = some path →
        Overlay.scalar variable_.2 = .int 20 := by
    intro variable_ member path there
    simp only [sameSizes, List.mem_cons, List.not_mem_nil, or_false] at member
    rcases member with rfl | rfl | rfl
    · rfl
    · cases there
    · rfl
  have agrees : Overlay.Agrees Overlay.defaultMark sameSizes := fun one isOne two isTwo path
    there also => (twenty one isOne path there).trans (twenty two isTwo path also).symm
  have reordered : sameSizes.reverse.Perm sameSizes := List.reverse_perm sameSizes
  obtain ⟨ignores, _, loads⟩ :=
    overrides_ignore_order_iff_paths_agree Overlay.defaultMark sameSizes
  exact ⟨agrees, reordered, ignores.mpr agrees _ reordered, loads agrees _ reordered⟩

def twoSizes : List (String × String) :=
  [("ORDERHOOK__QUEUE__BATCH_SIZE", "10"), ("ORDERHOOK__queue__batch_size", "20")]

/-- The variable that the environment lists last sets the size of a batch. -/
theorem listing_order_sets_the_batch_size :
    (twoSizes.map Prod.fst).Nodup ∧ twoSizes.reverse.Perm twoSizes ∧
      Overlay.overrides Overlay.defaultMark twoSizes.reverse ≠
        Overlay.overrides Overlay.defaultMark twoSizes ∧
      (Overlay.overlaid Overlay.defaultMark twoSizes (.obj [])).path? ["queue", "batch_size"] =
        some (.int 20) ∧
      (Overlay.overlaid Overlay.defaultMark twoSizes.reverse (.obj [])).path?
        ["queue", "batch_size"] = some (.int 10) := by
  have onePath : ∀ variable_ ∈ twoSizes,
      Overlay.path? Overlay.defaultMark variable_.1 = some ["queue", "batch_size"] := by
    decide +kernel
  have listed := Overlay.overrides_of_one_path onePath
  have reversed := Overlay.overrides_of_one_path fun variable_ member =>
    onePath variable_ (List.mem_reverse.mp member)
  refine ⟨by decide, List.reverse_perm twoSizes, ?_, ?_, ?_⟩
  · rw [listed, reversed]
    intro same
    have values := congrArg (fun changes => (changes.head?.map Overlay.Override.value)) same
    cases values
  · rw [Overlay.overlaid, listed]
    rfl
  · rw [Overlay.overlaid, reversed]
    rfl

end Sample

end WebhookRelay
