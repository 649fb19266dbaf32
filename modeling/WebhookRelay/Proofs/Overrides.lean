import WebhookRelay.Config.Overlay
import Mathlib.Data.List.Induction
import Mathlib.Data.List.Nodup

/-!
# What an overlay makes of a tree

Two paths are apart if neither is the beginning of the other.  Setting the value at one path
leaves what stands at every path apart from it, opens an object at each place on the way, and
leaves nothing below it but what the value holds.  Overrides apply in the order of their
paths, in which no path comes after one that begins with it.  So a later override never takes
away what an earlier one has set, unless it goes on below it.
-/

set_option autoImplicit false

namespace WebhookRelay

namespace Overlay

/-! ## Paths -/

structure Apart (path other : List String) : Prop where
  notUnder : ¬other <+: path
  notAbove : ¬path <+: other

theorem apart_cons {name : String} {path other : List String} :
    Apart (name :: path) (name :: other) ↔ Apart path other := by
  constructor
  · rintro ⟨notUnder, notAbove⟩
    exact ⟨fun under => notUnder (List.cons_prefix_cons.mpr ⟨rfl, under⟩),
      fun above => notAbove (List.cons_prefix_cons.mpr ⟨rfl, above⟩)⟩
  · rintro ⟨notUnder, notAbove⟩
    exact ⟨fun under => notUnder (List.cons_prefix_cons.mp under).2,
      fun above => notAbove (List.cons_prefix_cons.mp above).2⟩

theorem Apart.ne_nil {path other : List String} (apart : Apart path other) : path ≠ [] := by
  rintro rfl
  exact apart.notAbove List.nil_prefix

theorem pathAtMost_cons {name first : String} {path other : List String} :
    pathAtMost (name :: path) (first :: other) = true ↔
      name < first ∨ name = first ∧ pathAtMost path other = true := by
  simp [pathAtMost]

theorem pathAtMost_total (path other : List String) :
    (pathAtMost path other || pathAtMost other path) = true := by
  induction path generalizing other with
  | nil => rfl
  | cons name path ih =>
      cases other with
      | nil => simp [pathAtMost]
      | cons first other =>
          rw [Bool.or_eq_true, pathAtMost_cons, pathAtMost_cons]
          by_cases before : name < first
          · exact Or.inl (Or.inl before)
          · by_cases after : first < name
            · exact Or.inr (Or.inl after)
            · obtain rfl := String.le_antisymm (String.not_lt.mp after) (String.not_lt.mp before)
              rcases (Bool.or_eq_true _ _).mp (ih other) with atMost | atLeast
              · exact Or.inl (Or.inr ⟨rfl, atMost⟩)
              · exact Or.inr (Or.inr ⟨rfl, atLeast⟩)

theorem pathAtMost_trans (low middle high : List String) (first : pathAtMost low middle = true)
    (second : pathAtMost middle high = true) : pathAtMost low high = true := by
  induction low generalizing middle high with
  | nil => rfl
  | cons name low ih =>
      cases middle with
      | nil => cases first
      | cons between middle =>
          cases high with
          | nil => cases second
          | cons last high =>
              rw [pathAtMost_cons] at first second ⊢
              rcases first with before | ⟨rfl, first⟩
              · rcases second with later | ⟨rfl, _⟩
                · exact Or.inl (String.lt_trans before later)
                · exact Or.inl before
              · rcases second with later | ⟨rfl, second⟩
                · exact Or.inl later
                · exact Or.inr ⟨rfl, ih middle high first second⟩

/-- A path comes before every path that begins with it. -/
theorem eq_of_prefix_of_pathAtMost {path other : List String} (begins : other <+: path)
    (ordered : pathAtMost path other = true) : other = path := by
  induction path generalizing other with
  | nil => exact List.prefix_nil.mp begins
  | cons name path ih =>
      cases other with
      | nil => cases ordered
      | cons first other =>
          obtain ⟨rfl, below⟩ := List.cons_prefix_cons.mp begins
          rcases pathAtMost_cons.mp ordered with before | ⟨_, ordered⟩
          · exact absurd before (String.lt_irrefl first)
          · rw [ih below ordered]

/-! ## Setting one value -/

/-- What stands under the first name of a path once a value is set there. -/
def under (value : Json) (name : String) (rest : List String) (tree : Json) : Json :=
  match rest with
  | [] => value
  | _ :: _ => setPath value rest ((tree.member? name).getD (.obj []))

variable {value tree : Json} {name other : String} {path rest : List String}

theorem lookup?_membersOf (name : String) (tree : Json) :
    Json.lookup? name (membersOf tree) = tree.member? name := by
  cases tree <;> rfl

theorem setPath_cons (value : Json) (name : String) (rest : List String) (tree : Json) :
    setPath value (name :: rest) tree =
      .obj (Json.insertMember name (under value name rest tree) (membersOf tree)) := by
  cases rest with
  | nil => rfl
  | cons next rest =>
      rw [setPath, lookup?_membersOf, under]
      exact List.cons_ne_nil _ _

theorem member?_setPath_self :
    (setPath value (name :: rest) tree).member? name = some (under value name rest tree) := by
  rw [setPath_cons]
  exact Json.lookup?_insertMember_self _ _ _

theorem member?_setPath_of_ne (distinct : other ≠ name) :
    (setPath value (name :: rest) tree).member? other = tree.member? other := by
  rw [setPath_cons]
  exact (Json.lookup?_insertMember_of_ne _ _ distinct).trans (lookup?_membersOf other tree)

theorem path?_cons (name : String) (rest : List String) (tree : Json) :
    tree.path? (name :: rest) = (tree.member? name).bind (Json.path? rest) := rfl

theorem path?_empty (positive : path ≠ []) : (Json.obj []).path? path = none := by
  cases path with
  | nil => exact absurd rfl positive
  | cons name rest => rfl

theorem path?_setPath_of_apart {place : List String} (apart : Apart path place) :
    (setPath value place tree).path? path = tree.path? path := by
  induction place generalizing path tree with
  | nil => exact absurd List.nil_prefix apart.notUnder
  | cons name rest ih =>
      cases path with
      | nil => exact absurd rfl apart.ne_nil
      | cons first path =>
          by_cases same : first = name
          · subst same
            have below := apart_cons.mp apart
            rw [path?_cons, member?_setPath_self, path?_cons, Option.bind_some]
            cases rest with
            | nil => exact absurd List.nil_prefix below.notUnder
            | cons next rest =>
                rw [under, ih below]
                cases tree.member? first with
                | none => exact path?_empty below.ne_nil
                | some child => rfl
          · rw [path?_cons, member?_setPath_of_ne same, path?_cons]

/-- At the path that is set and below it there is what the value holds. -/
theorem path?_setPath_append {place : List String} (positive : place ≠ [])
    (rest : List String) :
    (setPath value place tree).path? (place ++ rest) = value.path? rest := by
  induction place generalizing tree with
  | nil => exact absurd rfl positive
  | cons name place ih =>
      rw [List.cons_append, path?_cons, member?_setPath_self, Option.bind_some]
      cases place with
      | nil => rfl
      | cons next place => exact ih (List.cons_ne_nil _ _)

/-- On the way to the path that is set there are objects. -/
theorem path?_setPath_above (path : List String) (name : String) (rest : List String) :
    ∃ members, (setPath value (path ++ name :: rest) tree).path? path = some (.obj members) := by
  induction path generalizing tree with
  | nil => exact ⟨_, congrArg some (setPath_cons value name rest tree)⟩
  | cons first path ih =>
      rw [List.cons_append, path?_cons, member?_setPath_self, Option.bind_some]
      cases shape : path ++ name :: rest with
      | nil => exact absurd shape (by simp)
      | cons next more =>
          rw [under, ← shape]
          exact ih

/-! ## Setting one value after the other -/

/-- What a tree has become of another one by overrides. -/
structure Laid (tree : Json) (changes : List Override) (result : Json) : Prop where
  /-- The deepest overrides hold. -/
  set : ∀ change ∈ changes,
    (∀ other ∈ changes, change.path <+: other.path → other.path = change.path) →
      result.path? change.path = some change.value
  /-- There are objects on the way to an override. -/
  opened : ∀ change ∈ changes, ∀ path, path <+: change.path → path ≠ change.path →
    ∃ members, result.path? path = some (.obj members)
  /-- Below an override there is nothing but what another one has put there. -/
  closed : ∀ change ∈ changes, ∀ path, change.path <+: path →
    (∀ other ∈ changes, ¬path <+: other.path) → result.path? path = none
  kept : ∀ path, (∀ change ∈ changes, Apart path change.path) →
    result.path? path = tree.path? path

/-- An override of a path that is not empty by a value without members. -/
structure Override.Plain (change : Override) : Prop where
  placed : change.path ≠ []
  flat : ∀ path, path ≠ [] → change.value.path? path = none

theorem laid_nil (tree : Json) : Laid tree [] tree where
  set _ member := by cases member
  opened _ member := by cases member
  closed _ member := by cases member
  kept _ _ := rfl

theorem Laid.step {changes : List Override} {change : Override} {middle : Json}
    (laid : Laid tree changes middle) (plain : change.Plain)
    (fresh : ∀ earlier ∈ changes, ¬change.path <+: earlier.path) :
    Laid tree (changes ++ [change]) (setPath change.value change.path middle) where
  set := by
    intro chosen member deepest
    rcases List.mem_append.mp member with old | new
    · have apart : Apart chosen.path change.path := by
        refine ⟨fresh chosen old, fun begins => fresh chosen old ?_⟩
        have whole := deepest change (List.mem_append_right _ List.mem_cons_self) begins
        exact whole ▸ List.prefix_rfl
      rw [path?_setPath_of_apart apart]
      exact laid.set chosen old fun other inside => deepest other (List.mem_append_left _ inside)
    · obtain rfl := List.mem_singleton.mp new
      have holds : (setPath chosen.value chosen.path middle).path? (chosen.path ++ []) = _ :=
        path?_setPath_append plain.placed []
      rwa [List.append_nil] at holds
  opened := by
    intro chosen member path begins proper
    by_cases onTheWay : path <+: change.path
    · by_cases whole : path = change.path
      · -- A path on the way to an earlier override is no later path.
        rcases List.mem_append.mp member with old | new
        · exact absurd (whole ▸ begins) (fresh chosen old)
        · exact absurd (whole.trans (by rw [List.mem_singleton.mp new])) proper
      · obtain ⟨rest, shape⟩ := onTheWay
        cases rest with
        | nil => exact absurd ((List.append_nil path).symm.trans shape) whole
        | cons name rest =>
            rw [← shape]
            exact path?_setPath_above path name rest
    · rcases List.mem_append.mp member with old | new
      · have apart : Apart path change.path :=
          ⟨fun below => fresh chosen old (below.trans begins), onTheWay⟩
        rw [path?_setPath_of_apart apart]
        exact laid.opened chosen old path begins proper
      · rw [List.mem_singleton.mp new] at begins
        exact absurd begins onTheWay
  closed := by
    intro chosen member path below unreached
    have last := unreached change (List.mem_append_right _ List.mem_cons_self)
    by_cases deeper : change.path <+: path
    · obtain ⟨rest, rfl⟩ := deeper
      rw [path?_setPath_append plain.placed]
      refine plain.flat rest ?_
      rintro rfl
      rw [List.append_nil] at last
      exact last List.prefix_rfl
    · rw [path?_setPath_of_apart ⟨deeper, last⟩]
      rcases List.mem_append.mp member with old | new
      · exact laid.closed chosen old path below fun other inside =>
          unreached other (List.mem_append_left _ inside)
      · rw [List.mem_singleton.mp new] at below
        exact absurd below deeper
  kept := by
    intro path apart
    rw [path?_setPath_of_apart (apart change (List.mem_append_right _ List.mem_cons_self))]
    exact laid.kept path fun other inside => apart other (List.mem_append_left _ inside)

theorem apply_concat (tree : Json) (changes : List Override) (change : Override) :
    apply tree (changes ++ [change]) = setPath change.value change.path (apply tree changes) :=
  List.foldl_append ..

/-- Overrides in order, of which no two are of one path. -/
theorem laid_apply {changes : List Override} (plain : ∀ change ∈ changes, change.Plain)
    (ordered : changes.Pairwise fun early late => pathAtMost early.path late.path = true)
    (distinct : changes.Pairwise fun early late => early.path ≠ late.path) :
    Laid tree changes (apply tree changes) := by
  induction changes using List.reverseRecOn with
  | nil => exact laid_nil tree
  | append_singleton changes change ih =>
      obtain ⟨ordered, _, before⟩ := List.pairwise_append.mp ordered
      obtain ⟨distinct, _, other⟩ := List.pairwise_append.mp distinct
      rw [apply_concat]
      refine (ih (fun earlier inside => plain earlier (List.mem_append_left _ inside))
        ordered distinct).step
          (plain change (List.mem_append_right _ List.mem_cons_self)) ?_
      intro earlier inside begins
      refine other earlier inside change List.mem_cons_self ?_
      exact (eq_of_prefix_of_pathAtMost begins
        (before earlier inside change List.mem_cons_self)).symm

/-! ## The overrides of an environment -/

def pathsOf (mark : String) (env : List (String × String)) : List (List String) :=
  env.filterMap fun variable_ => path? mark variable_.1

def overlaid (mark : String) (env : List (String × String)) (tree : Json) : Json :=
  apply tree (overrides mark env)

theorem path?_ne_nil {mark : String} (given : path? mark name = some path) : path ≠ [] := by
  rintro rfl
  unfold Overlay.path? at given
  split at given
  · cases given
  · split at given
    · cases given
    · rename_i segments some_segments
      exact some_segments (List.map_eq_nil_iff.mp (Option.some.inj given))

theorem path?_scalar (text : String) (positive : path ≠ []) : (scalar text).path? path = none := by
  cases path with
  | nil => exact absurd rfl positive
  | cons name rest =>
      unfold scalar
      split <;> rfl

section Environment

variable {mark : String} {env : List (String × String)}

theorem override?_eq_some {variable_ : String × String} {change : Override} :
    override? mark variable_ = some change ↔
      path? mark variable_.1 = some change.path ∧ change.value = scalar variable_.2 := by
  obtain ⟨path, value⟩ := change
  rw [override?, Option.map_eq_some_iff]
  constructor
  · rintro ⟨given, there, same⟩
    cases same
    exact ⟨there, rfl⟩
  · rintro ⟨there, rfl⟩
    exact ⟨path, there, rfl⟩

theorem mem_overrides {change : Override} : change ∈ overrides mark env ↔
    ∃ variable_ ∈ env, path? mark variable_.1 = some change.path ∧
      change.value = scalar variable_.2 := by
  rw [overrides, (List.mergeSort_perm _ _).mem_iff, List.mem_filterMap]
  exact exists_congr fun variable_ => and_congr_right fun _ => override?_eq_some

theorem mem_pathsOf : path ∈ pathsOf mark env ↔
    ∃ change ∈ overrides mark env, change.path = path := by
  rw [pathsOf, List.mem_filterMap]
  constructor
  · rintro ⟨variable_, member, there⟩
    exact ⟨⟨path, scalar variable_.2⟩, mem_overrides.mpr ⟨variable_, member, there, rfl⟩, rfl⟩
  · rintro ⟨change, member, rfl⟩
    obtain ⟨variable_, inside, there, _⟩ := mem_overrides.mp member
    exact ⟨variable_, inside, there⟩

theorem plain_of_mem_overrides {change : Override} (member : change ∈ overrides mark env) :
    change.Plain := by
  obtain ⟨variable_, _, there, valued⟩ := mem_overrides.mp member
  refine ⟨path?_ne_nil there, fun path positive => ?_⟩
  rw [valued]
  exact path?_scalar variable_.2 positive

theorem ordered_overrides (mark : String) (env : List (String × String)) :
    (overrides mark env).Pairwise fun early late => pathAtMost early.path late.path = true :=
  List.pairwise_mergeSort (fun low middle high => pathAtMost_trans low.path middle.path high.path)
    (fun change other => pathAtMost_total change.path other.path) _

theorem map_path_override? (mark : String) (env : List (String × String)) :
    (env.filterMap (override? mark)).map Override.path = pathsOf mark env := by
  rw [List.map_filterMap, pathsOf]
  refine congrArg (env.filterMap ·) (funext fun variable_ => ?_)
  rw [override?, Option.map_map]
  exact Option.map_id'

theorem distinct_overrides (distinct : (pathsOf mark env).Nodup) :
    (overrides mark env).Pairwise fun early late => early.path ≠ late.path := by
  rw [← map_path_override?] at distinct
  have sorted : ((overrides mark env).map Override.path).Nodup :=
    ((List.mergeSort_perm _ _).map Override.path).nodup_iff.mpr distinct
  exact List.pairwise_map.mp sorted

theorem laid_overlaid (distinct : (pathsOf mark env).Nodup) (tree : Json) :
    Laid tree (overrides mark env) (overlaid mark env tree) :=
  laid_apply (fun _ member => plain_of_mem_overrides member) (ordered_overrides mark env)
    (distinct_overrides distinct)

/-- What a value at a path of an overlaid tree comes from. -/
inductive Source (mark : String) (env : List (String × String)) (tree : Json)
    (path : List String) : Json → Prop where
  /-- The variable of the path, if no path goes on below it. -/
  | variable_ (name text : String) (given : (name, text) ∈ env)
      (there : path? mark name = some path)
      (deepest : ∀ other ∈ pathsOf mark env, path <+: other → other = path) :
      Source mark env tree path (scalar text)
  /-- The tree, if the path is apart from that of every variable. -/
  | original (value : Json) (apart : ∀ other ∈ pathsOf mark env, Apart path other)
      (there : tree.path? path = some value) : Source mark env tree path value
  /-- An object on the way to the path of a variable. -/
  | way (members : List (String × Json)) (other : List String)
      (given : other ∈ pathsOf mark env) (begins : path <+: other) (proper : path ≠ other) :
      Source mark env tree path (.obj members)

theorem Laid.source {result value : Json} (laid : Laid tree (overrides mark env) result)
    (found : result.path? path = some value) : Source mark env tree path value := by
  by_cases onTheWay : ∃ other ∈ pathsOf mark env, path <+: other ∧ path ≠ other
  · obtain ⟨other, given, begins, proper⟩ := onTheWay
    obtain ⟨change, member, rfl⟩ := mem_pathsOf.mp given
    obtain ⟨members, opened⟩ := laid.opened change member path begins proper
    rw [opened] at found
    cases found
    exact .way members change.path given begins proper
  · have deepest : ∀ other ∈ pathsOf mark env, path <+: other → other = path := by
      intro other given begins
      by_contra distinct
      exact onTheWay ⟨other, given, begins, Ne.symm distinct⟩
    by_cases isPath : path ∈ pathsOf mark env
    · obtain ⟨change, member, rfl⟩ := mem_pathsOf.mp isPath
      obtain ⟨⟨name, text⟩, inside, there, valued⟩ := mem_overrides.mp member
      have holds := laid.set change member fun other given =>
        deepest other.path (mem_pathsOf.mpr ⟨other, given, rfl⟩)
      rw [holds, valued] at found
      cases found
      exact .variable_ name text inside there deepest
    · have unreached : ∀ change ∈ overrides mark env, ¬path <+: change.path := by
        intro change member begins
        have given := mem_pathsOf.mpr ⟨change, member, rfl⟩
        exact isPath (deepest change.path given begins ▸ given)
      have apart : ∀ change ∈ overrides mark env, Apart path change.path := by
        intro change member
        refine ⟨fun below => ?_, unreached change member⟩
        rw [laid.closed change member path below unreached] at found
        cases found
      refine .original value (fun other given => ?_) ((laid.kept path apart).symm.trans found)
      obtain ⟨change, member, rfl⟩ := mem_pathsOf.mp given
      exact apart change member

end Environment

/-- If no two variables give one path, the overlaid tree holds the scalar of every variable
below whose path no other goes on, whatever the variables on the way to it say, and an object
at each place on the way to a path.  What the tree held at a path apart from all of these it
still holds.  There is nothing else in it. -/
theorem overlaid_tree_holds_deepest_variables {mark : String} {env : List (String × String)}
    (distinct : (pathsOf mark env).Nodup) (tree : Json) :
    (∀ name text path, (name, text) ∈ env → path? mark name = some path →
      (∀ other ∈ pathsOf mark env, path <+: other → other = path) →
      (overlaid mark env tree).path? path = some (scalar text)) ∧
    (∀ other ∈ pathsOf mark env, ∀ path, path <+: other → path ≠ other →
      ∃ members, (overlaid mark env tree).path? path = some (.obj members)) ∧
    (∀ path value, tree.path? path = some value →
      (∀ other ∈ pathsOf mark env, Apart path other) →
      (overlaid mark env tree).path? path = some value) ∧
    ∀ path value, (overlaid mark env tree).path? path = some value →
      Source mark env tree path value := by
  have laid := laid_overlaid distinct tree
  refine ⟨?_, ?_, ?_, ?_⟩
  · intro name text path given there deepest
    refine laid.set ⟨path, scalar text⟩ (mem_overrides.mpr ⟨(name, text), given, there, rfl⟩) ?_
    intro other member
    exact deepest other.path (mem_pathsOf.mpr ⟨other, member, rfl⟩)
  · intro other given path begins proper
    obtain ⟨change, member, rfl⟩ := mem_pathsOf.mp given
    exact laid.opened change member path begins proper
  · intro path value there apart
    rw [laid.kept path fun change member => apart _ (mem_pathsOf.mpr ⟨change, member, rfl⟩)]
    exact there
  · intro path value found
    exact laid.source found

end Overlay

namespace Sample

def nestedVariables : List (String × String) :=
  [("ORDERHOOK__QUEUE__RETRY__LIMIT", "7"), ("ORDERHOOK__QUEUE__RETRY", "off"), ("HOME", "/"),
    ("ORDERHOOK__QUEUE__BATCH_SIZE", "20")]

def queueTree : Json :=
  .obj [("queue", .obj [("retry", .null), ("poll_secs", .int 2)]), ("name", .str "relay")]

set_option maxRecDepth 100000 in
theorem deepest_variable_wins_over_its_section :
    (Overlay.overlaid Overlay.defaultMark nestedVariables queueTree).path?
        ["queue", "retry", "limit"] = some (Overlay.scalar "7") ∧
      (Overlay.overlaid Overlay.defaultMark nestedVariables queueTree).path?
        ["queue", "poll_secs"] = some (.int 2) := by
  have paths : Overlay.pathsOf Overlay.defaultMark nestedVariables =
      [["queue", "retry", "limit"], ["queue", "retry"], ["queue", "batch_size"]] := by
    decide +kernel
  have distinct : (Overlay.pathsOf Overlay.defaultMark nestedVariables).Nodup := by
    rw [paths]
    decide +kernel
  obtain ⟨set, _, kept, _⟩ :=
    Overlay.overlaid_tree_holds_deepest_variables distinct queueTree
  constructor
  · refine set "ORDERHOOK__QUEUE__RETRY__LIMIT" "7" _ ?_ ?_ ?_
    · decide
    · decide +kernel
    · rw [paths]
      decide +kernel
  · refine kept ["queue", "poll_secs"] (.int 2) rfl ?_
    rw [paths]
    intro other given
    simp only [List.mem_cons, List.not_mem_nil, or_false] at given
    rcases given with rfl | rfl | rfl <;> exact ⟨by decide +kernel, by decide +kernel⟩

end Sample

end WebhookRelay
