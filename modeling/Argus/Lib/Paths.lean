import Mathlib.Data.List.Basic

/-!
# Paths and the directories they name

A path is a text whose components stand between slashes. Resolving it walks from directory to
directory: an empty component and `.` stay, `..` goes to the parent, and any other component is the
name of a child. A directory is the list of the names from the root down to it. Links are left out.
-/

namespace Paths

/-- The components of a path, the empty ones included. -/
def components (path : List Char) : List (List Char) := path.splitOn '/'

/-- One component further. -/
def enter (dir : List (List Char)) (component : List Char) : List (List Char) :=
  if component = [] ∨ component = ['.'] then dir
  else if component = ['.', '.'] then dir.dropLast
  else dir ++ [component]

def walk (dir components : List (List Char)) : List (List Char) := components.foldl enter dir

/-- A component that names a child. -/
structure IsName (component : List Char) : Prop where
  nonempty : component ≠ []
  ne_dot : component ≠ ['.']
  ne_dots : component ≠ ['.', '.']
  no_slash : '/' ∉ component

structure Directory where
  names : List (List Char)
  valid : ∀ name ∈ names, IsName name

/-- What a path names, from a working directory. -/
def resolve (cwd : Directory) (path : List Char) : List (List Char) :=
  walk (if path.head? = some '/' then [] else cwd.names) (components path)

/-- The components, with a slash between them. -/
def spell (components : List (List Char)) : List Char := ['/'].intercalate components

variable {dir names names' : List (List Char)} {cwd : Directory}
  {component path front back : List Char}

/-! ### Components -/

theorem components_append_slash :
    components (front ++ '/' :: back) = components front ++ components back :=
  List.splitOn_append_cons_self front back

theorem slash_not_mem (h : component ∈ components path) : '/' ∉ component := by
  induction path generalizing component with
  | nil =>
      rw [components, List.splitOn_nil, List.mem_singleton] at h
      simp [h]
  | cons c path ih =>
      rw [components, List.splitOn_cons_eq_if_modifyHead] at h
      split_ifs at h with hslash
      · rcases List.mem_cons.mp h with rfl | h
        · simp
        · exact ih h
      · cases hrest : path.splitOn '/' with
        | nil => exact absurd hrest (List.splitOn_ne_nil '/' path)
        | cons first rest =>
            rw [hrest, List.modifyHead_cons] at h
            rcases List.mem_cons.mp h with rfl | h
            · have hfirst : '/' ∉ first := ih (by rw [components, hrest]; exact List.mem_cons_self)
              refine List.not_mem_cons_of_ne_of_not_mem (fun heq => hslash ?_) hfirst
              exact beq_iff_eq.mpr heq.symm
            · exact ih (by rw [components, hrest]; exact List.mem_cons_of_mem _ h)

theorem components_spell (hnames : ∀ name ∈ names, '/' ∉ name) (hne : names ≠ []) :
    components (spell names) = names :=
  List.splitOn_intercalate '/' hnames hne

theorem spell_eq_nil_iff (hnames : ∀ name ∈ names, IsName name) :
    spell names = [] ↔ names = [] := by
  constructor
  · intro h
    by_contra hne
    have hcomponents := components_spell (fun name hname => (hnames name hname).no_slash) hne
    rw [h] at hcomponents
    -- the empty text has one component, which is empty
    have hempty : [] ∈ names := by
      rw [← hcomponents]
      exact List.mem_singleton_self []
    exact (hnames [] hempty).nonempty rfl
  · rintro rfl
    rfl

/-- Names are told by their spelling. -/
theorem spell_injective (hnames : ∀ name ∈ names, IsName name)
    (hnames' : ∀ name ∈ names', IsName name) (h : spell names = spell names') :
    names = names' := by
  by_cases hne : names = []
  · subst hne
    exact ((spell_eq_nil_iff hnames').mp h.symm).symm
  · have hne' : names' ≠ [] := fun heq =>
      hne ((spell_eq_nil_iff hnames).mp (h.trans ((spell_eq_nil_iff hnames').mpr heq)))
    rw [← components_spell (fun name hname => (hnames name hname).no_slash) hne, h,
      components_spell (fun name hname => (hnames' name hname).no_slash) hne']

/-! ### Walking -/

@[simp] theorem walk_nil : walk dir [] = dir := rfl

@[simp] theorem walk_cons : walk dir (component :: names) = walk (enter dir component) names := rfl

theorem walk_append : walk dir (names ++ names') = walk (walk dir names) names' :=
  List.foldl_append

@[simp] theorem enter_nil : enter dir [] = dir := rfl

theorem enter_isName (h : IsName component) : enter dir component = dir ++ [component] := by
  rw [enter, if_neg (not_or.mpr ⟨h.nonempty, h.ne_dot⟩), if_neg h.ne_dots]

/-- A walk that never goes up: the directory grows by the names. -/
theorem walk_down (hnames : ∀ name ∈ names, name ≠ [] ∧ name ≠ ['.', '.']) :
    walk dir names = dir ++ names.filter (· ≠ ['.']) := by
  induction names generalizing dir with
  | nil => simp
  | cons name names ih =>
      obtain ⟨⟨hne, hdots⟩, hrest⟩ := List.forall_mem_cons.mp hnames
      rw [walk_cons, ih hrest, List.filter_cons]
      by_cases hdot : name = ['.']
      · simp [enter, hdot]
      · simp [enter, hne, hdots, hdot]

/-- What a path names through another one. -/
theorem resolve_append_slash :
    resolve cwd (front ++ '/' :: back) =
      walk (resolve cwd (front ++ ['/'])) (components back) := by
  have hhead : (front ++ '/' :: back).head? = (front ++ ['/']).head? := by
    cases front <;> rfl
  unfold resolve
  rw [hhead, components_append_slash, components_append_slash, walk_append, walk_append]
  rfl

theorem mem_enter {name : List Char} (hslash : '/' ∉ component) (hdir : ∀ name ∈ dir, IsName name)
    (h : name ∈ enter dir component) : IsName name := by
  unfold enter at h
  split_ifs at h with hstay hup
  · exact hdir name h
  · exact hdir name ((List.dropLast_subset dir h))
  · obtain ⟨hne, hdot⟩ := not_or.mp hstay
    rcases List.mem_append.mp h with h | h
    · exact hdir name h
    · rw [List.mem_singleton.mp h]
      exact ⟨hne, hdot, hup, hslash⟩

/-- A walk from a directory ends in a directory. -/
theorem isName_walk (hnames : ∀ name ∈ names, '/' ∉ name) (hdir : ∀ name ∈ dir, IsName name) :
    ∀ name ∈ walk dir names, IsName name := by
  induction names generalizing dir with
  | nil => exact hdir
  | cons name names ih =>
      obtain ⟨hname, hrest⟩ := List.forall_mem_cons.mp hnames
      exact ih hrest fun _ => mem_enter hname hdir

theorem isName_resolve : ∀ name ∈ resolve cwd path, IsName name := by
  refine isName_walk (fun _ => slash_not_mem) ?_
  split_ifs
  · exact fun _ hname => absurd hname List.not_mem_nil
  · exact cwd.valid

end Paths
